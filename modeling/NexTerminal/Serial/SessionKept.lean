import NexTerminal.Serial.SmartSerialPty

namespace NexTerminal.Serial

variable {Id : Type}

namespace SmartSerialPty

/-- The transport reported the session gone, or was asked to close it. -/
def Gone (pty : SmartSerialPty Id) (sessionId : Id) : Prop :=
  sessionId ∈ pty.disconnected ∨ sessionId ∈ pty.unknown ∨ sessionId ∈ pty.closed

def Live (pty : SmartSerialPty Id) (sessionId : Id) : Prop := sessionId ∈ pty.opened ∧ ¬ pty.Gone sessionId

/-- A session may be held once `tryOpen` has returned it, and then while nothing polls. -/
def Settled (pty : SmartSerialPty Id) : Option Await → Prop
  | none | some (.onResolvedPort ..) => pty.pollTimer = true → pty.transportSessionId = none
  | some (.tried _ _ .connected) => True
  | some _ => pty.transportSessionId = none

structure Sound (pty : SmartSerialPty Id) : Prop where
  busy : pty.connecting = pty.awaiting.isSome
  settled : pty.Settled pty.awaiting
  fresh : pty.started = false →
    pty.awaiting = none ∧ pty.transportSessionId = none ∧ pty.pollTimer = false ∧ pty.writes = []
  ended : pty.stopped = true ∨ pty.disposed = true → pty.transportSessionId = none
  letGo : pty.shutDown = [] ∨ pty.stopped = true ∧ ∃ sessionId, pty.shutDown = [sessionId]
  accounted : ∀ sessionId ∈ pty.opened,
    pty.transportSessionId = some sessionId ∨ pty.Gone sessionId ∨ sessionId ∈ pty.shutDown

structure SameSessions (before after : SmartSerialPty Id) : Prop where
  opened : after.opened = before.opened
  disconnected : after.disconnected = before.disconnected
  unknown : after.unknown = before.unknown
  closed : after.closed = before.closed
  shutDown : after.shutDown = before.shutDown
  transportSessionId : after.transportSessionId = before.transportSessionId
  disposed : after.disposed = before.disposed
  started : after.started = before.started
  stopped : before.stopped = true → after.stopped = true

namespace SameSessions

variable {before middle after : SmartSerialPty Id}

theorem refl (pty : SmartSerialPty Id) : SameSessions pty pty := ⟨rfl, rfl, rfl, rfl, rfl, rfl, rfl, rfl, id⟩

theorem trans (first : SameSessions before middle) (second : SameSessions middle after) :
    SameSessions before after where
  opened := second.opened.trans first.opened
  disconnected := second.disconnected.trans first.disconnected
  unknown := second.unknown.trans first.unknown
  closed := second.closed.trans first.closed
  shutDown := second.shutDown.trans first.shutDown
  transportSessionId := second.transportSessionId.trans first.transportSessionId
  disposed := second.disposed.trans first.disposed
  started := second.started.trans first.started
  stopped := second.stopped ∘ first.stopped

theorem gone (same : SameSessions before after) (sessionId : Id) : after.Gone sessionId ↔ before.Gone sessionId := by
  unfold Gone
  rw [same.disconnected, same.unknown, same.closed]

end SameSessions

theorem emit_same (pty : SmartSerialPty Id) (outputs : List (Output Id)) : SameSessions pty (pty.emit outputs) :=
  ⟨rfl, rfl, rfl, rfl, rfl, rfl, rfl, rfl, id⟩

theorem enterWaiting_same (pty : SmartSerialPty Id) (msg key : String) :
    SameSessions pty (pty.enterWaiting msg key) ∧
      (pty.enterWaiting msg key).awaiting = pty.awaiting ∧
      (pty.enterWaiting msg key).connecting = pty.connecting := by
  unfold enterWaiting
  dsimp only
  split_ifs
  · exact ⟨.refl pty, rfl, rfl⟩
  · exact ⟨⟨rfl, rfl, rfl, rfl, rfl, rfl, rfl, rfl, id⟩, rfl, rfl⟩
  · exact ⟨⟨rfl, rfl, rfl, rfl, rfl, rfl, rfl, rfl, id⟩, rfl, rfl⟩

/-- A round that goes on while no session is held: it is suspended again, or over. -/
structure GoesOn (before after : SmartSerialPty Id) : Prop where
  same : SameSessions before after
  busy : after.connecting = after.awaiting.isSome

variable {pty : SmartSerialPty Id}

theorem suspend_goesOn (connecting : pty.connecting = true) (await : Await) : GoesOn pty (pty.suspend await) :=
  ⟨⟨rfl, rfl, rfl, rfl, rfl, rfl, rfl, rfl, id⟩, connecting⟩

theorem leave_goesOn (pty : SmartSerialPty Id) : GoesOn pty pty.leave :=
  ⟨⟨rfl, rfl, rfl, rfl, rfl, rfl, rfl, rfl, id⟩, rfl⟩

theorem enterWaiting_leave_goesOn (pty : SmartSerialPty Id) (msg key : String) :
    GoesOn pty (pty.enterWaiting msg key).leave :=
  ⟨(pty.enterWaiting_same msg key).1.trans (leave_goesOn _).same, rfl⟩

theorem enterStopped_leave_goesOn (unheld : pty.transportSessionId = none) (msg : String) :
    GoesOn pty (pty.enterStopped msg).leave := by
  unfold enterStopped
  split_ifs
  · exact leave_goesOn pty
  · exact ⟨⟨rfl, rfl, rfl, rfl, rfl, unheld.symm, rfl, rfl, fun _ => rfl⟩, rfl⟩

theorem GoesOn.after_banner {after : SmartSerialPty Id} {msg : String}
    (on : GoesOn (pty.writeBanner msg) after) : GoesOn pty after :=
  ⟨(pty.emit_same _).trans on.same, on.busy⟩

theorem offer_goesOn (connecting : pty.connecting = true) (round : Round) (status : PreferredStatus)
    (hintMatches others : List SerialPortInfo) : GoesOn pty (pty.offer round status hintMatches others) := by
  unfold offer
  dsimp only
  split_ifs
  · cases status <;> exact pty.enterWaiting_leave_goesOn _ _
  · cases status <;> exact pty.enterWaiting_leave_goesOn _ _
  · exact ⟨⟨rfl, rfl, rfl, rfl, rfl, rfl, rfl, rfl, id⟩, connecting⟩

theorem seekCandidates_goesOn (env : Platform) (connecting : pty.connecting = true) (round : Round)
    (status : PreferredStatus) (busy : List String) (ports : List SerialPortInfo) :
    GoesOn pty (pty.seekCandidates env round status busy ports) := by
  unfold seekCandidates
  dsimp only
  split
  · exact suspend_goesOn connecting _
  · exact offer_goesOn connecting _ _ _ _
  · exact offer_goesOn connecting _ _ _ _

namespace Sound

variable {pty after : SmartSerialPty Id}

theorem settled_of_unheld (unheld : pty.transportSessionId = none) (await : Option Await) : pty.Settled await := by
  unfold Settled
  split
  · exact fun _ => unheld
  · exact fun _ => unheld
  · trivial
  · exact unheld

theorem of_same (sound : pty.Sound) (same : SameSessions pty after) (settled : after.Settled after.awaiting)
    (busy : after.connecting = after.awaiting.isSome)
    (fresh : after.started = false → after.awaiting = none ∧ after.pollTimer = false ∧ after.writes = [])
    (ended : after.stopped = true → after.transportSessionId = none) : after.Sound where
  busy := busy
  settled := settled
  fresh unopened :=
    have before := sound.fresh (same.started ▸ unopened)
    ⟨(fresh unopened).1, same.transportSessionId.trans before.2.1, (fresh unopened).2⟩
  ended
    | .inl stopped => ended stopped
    | .inr disposed => same.transportSessionId.trans (sound.ended (.inr (same.disposed ▸ disposed)))
  letGo := by
    rw [same.shutDown]
    exact sound.letGo.imp id fun ⟨stopped, held⟩ => ⟨same.stopped stopped, held⟩
  accounted sid opened := by
    rw [same.transportSessionId, same.gone, same.shutDown]
    exact sound.accounted sid (same.opened ▸ opened)

theorem goesOn (sound : pty.Sound) (on : GoesOn pty after) (started : pty.started = true)
    (unheld : pty.transportSessionId = none) : after.Sound := by
  have still : after.transportSessionId = none := on.same.transportSessionId.trans unheld
  refine sound.of_same on.same (settled_of_unheld still _) on.busy (fun unopened => ?_) fun _ => still
  rw [on.same.started, started] at unopened
  cases unopened

theorem started (sound : pty.Sound) {await : Await} (suspended : pty.awaiting = some await) : pty.started = true := by
  by_contra unopened
  have nowhere := (sound.fresh (Bool.eq_false_iff.mpr unopened)).1
  rw [suspended] at nowhere
  cases nowhere

theorem settledAt (sound : pty.Sound) {await : Await} (suspended : pty.awaiting = some await) :
    pty.Settled (some await) := suspended ▸ sound.settled

theorem connecting (sound : pty.Sound) {await : Await} (suspended : pty.awaiting = some await) :
    pty.connecting = true := by
  rw [sound.busy, suspended]
  rfl

theorem of_quiet (sound : pty.Sound) (same : SameSessions pty after) (awaiting : after.awaiting = pty.awaiting)
    (connecting : after.connecting = pty.connecting) (pollTimer : after.pollTimer = pty.pollTimer)
    (stopped : after.stopped = pty.stopped) (writes : pty.started = false → after.writes = []) : after.Sound := by
  refine sound.of_same same ?_ (by rw [connecting, awaiting, sound.busy]) (fun unopened => ?_) fun halted => ?_
  · have settled := sound.settled
    unfold Settled at settled ⊢
    rwa [awaiting, pollTimer, same.transportSessionId]
  · rw [same.started] at unopened
    obtain ⟨nowhere, _, unpolled, _⟩ := sound.fresh unopened
    exact ⟨awaiting.trans nowhere, pollTimer.trans unpolled, writes unopened⟩
  · exact same.transportSessionId.trans (sound.ended (.inl (stopped ▸ halted)))

theorem emit (sound : pty.Sound) (outputs : List (Output Id)) : (pty.emit outputs).Sound :=
  sound.of_quiet (pty.emit_same outputs) rfl rfl rfl rfl fun unopened => (sound.fresh unopened).2.2.2

theorem create (profile : SerialProfile) : (SmartSerialPty.create profile : SmartSerialPty Id).Sound where
  busy := rfl
  settled _ := rfl
  fresh _ := ⟨rfl, rfl, rfl, rfl⟩
  ended _ := rfl
  letGo := .inl rfl
  accounted := nofun

theorem ensureConnected (sound : pty.Sound) (started : pty.started = true)
    (unheld : pty.connecting = false → pty.transportSessionId = none) (reason : Reason) :
    (pty.ensureConnected reason).Sound := by
  unfold SmartSerialPty.ensureConnected
  split_ifs with busy
  · exact sound
  · have idle : pty.connecting = false := by
      simp only [Bool.or_eq_true, not_or, Bool.not_eq_true] at busy
      exact busy.1.2
    exact sound.goesOn ⟨⟨rfl, rfl, rfl, rfl, rfl, rfl, rfl, rfl, id⟩, rfl⟩ started (unheld idle)

theorem start (sound : pty.Sound) : pty.start.Sound := by
  unfold SmartSerialPty.start
  split_ifs with started
  · exact sound
  · obtain ⟨-, unheld, _, _⟩ := sound.fresh (Bool.eq_false_iff.mpr started)
    have opened : ({ pty with started := true } : SmartSerialPty Id).Sound :=
      { sound with
        settled := settled_of_unheld unheld _
        fresh := nofun }
    exact (opened.emit _).ensureConnected rfl (fun _ => unheld) _

theorem pollTick (sound : pty.Sound) : pty.pollTick.Sound := by
  unfold SmartSerialPty.pollTick
  split_ifs with polling
  · have started : pty.started = true := by
      by_contra unopened
      have unpolled := (sound.fresh (Bool.eq_false_iff.mpr unopened)).2.2.1
      rw [polling] at unpolled
      cases unpolled
    refine sound.ensureConnected started (fun idle => ?_) _
    rw [sound.busy] at idle
    have nowhere : pty.awaiting = none := Option.not_isSome_iff_eq_none.mp (Bool.eq_false_iff.mp idle)
    have settled := sound.settled
    rw [nowhere] at settled
    exact settled polling
  · exact sound

theorem portsListed (env : Platform) (sound : pty.Sound) (res : Except String (List SerialPortInfo))
    (busy : List String) : (pty.portsListed env res busy).Sound := by
  unfold SmartSerialPty.portsListed
  split
  case h_2 => exact sound
  case h_1 round suspended =>
    have unheld : pty.transportSessionId = none := sound.settledAt suspended
    have started := sound.started suspended
    have connecting := sound.connecting suspended
    split_ifs
    · exact sound.goesOn pty.leave_goesOn started unheld
    · cases res with
      | error msg =>
        dsimp only
        split_ifs
        · exact sound.goesOn (enterStopped_leave_goesOn unheld _) started unheld
        · exact sound.goesOn (pty.enterWaiting_leave_goesOn _ _) started unheld
      | ok ports =>
        dsimp only
        split
        · exact sound.goesOn (seekCandidates_goesOn env connecting _ _ _ _) started unheld
        · split_ifs
          · exact sound.goesOn (seekCandidates_goesOn env connecting _ _ _ _) started unheld
          · exact sound.goesOn (suspend_goesOn connecting _) started unheld

/-- Nothing is held while `openPort` is outstanding. What it returns is held then, or closed
if the terminal was disposed meanwhile. -/
theorem portOpened (sound : pty.Sound) (res : Except String Id)
    (running : ∀ round attempt sid, pty.awaiting = some (.openPort round attempt) → res = .ok sid →
      pty.disposed = false → pty.stopped = false) : (pty.portOpened res).Sound := by
  unfold SmartSerialPty.portOpened
  split
  case h_2 => exact sound
  case h_1 round attempt suspended =>
    have unheld : pty.transportSessionId = none := sound.settledAt suspended
    have started := sound.started suspended
    have connecting := sound.connecting suspended
    cases res with
    | error msg => exact sound.goesOn (suspend_goesOn connecting _) started unheld
    | ok sid =>
      have before : ∀ old ∈ pty.opened, pty.Gone old ∨ old ∈ pty.shutDown := by
        intro old opened
        refine (sound.accounted old opened).resolve_left ?_
        rw [unheld]
        exact nofun
      dsimp only
      split_ifs with disposed
      · refine
          { busy := connecting
            settled := unheld
            fresh := fun unopened => absurd started (Bool.eq_false_iff.mp unopened)
            ended := fun _ => unheld
            letGo := sound.letGo
            accounted := fun other opened => .inr ?_ }
        rcases List.mem_append.mp opened with old | new
        · refine (before other old).imp (fun gone => ?_) id
          exact gone.imp id (Or.imp id (List.mem_append_left _))
        · exact .inl (.inr (.inr (List.mem_append_right _ new)))
      · have up := running round attempt sid suspended rfl (Bool.eq_false_iff.mpr disposed)
        refine
          { busy := connecting
            settled := trivial
            fresh := fun unopened => absurd started (Bool.eq_false_iff.mp unopened)
            ended := fun halted => ?_
            letGo := sound.letGo
            accounted := fun other opened => ?_ }
        · rcases halted with stopped | gone
          · exact absurd stopped (Bool.eq_false_iff.mp up)
          · exact absurd gone disposed
        · rcases List.mem_append.mp opened with old | new
          · exact .inr (before other old)
          · rw [List.mem_singleton] at new
            exact .inl (congrArg some new.symm)

theorem portClosed (sound : pty.Sound) (res : Except String Unit) : (pty.portClosed res).Sound := by
  unfold SmartSerialPty.portClosed
  split
  case h_2 => exact sound
  case h_1 round attempt suspended =>
    have unheld : pty.transportSessionId = none := sound.settledAt suspended
    have on (await : Await) := suspend_goesOn (sound.connecting suspended) await
    cases res <;> exact sound.goesOn (on _) (sound.started suspended) unheld

theorem openTried (env : Platform) (sound : pty.Sound) : (pty.openTried env).Sound := by
  unfold SmartSerialPty.openTried
  split
  case h_2 => exact sound
  case h_1 round attempt res suspended =>
    have started := sound.started suspended
    have connecting := sound.connecting suspended
    split_ifs with ceased
    · exact sound.goesOn pty.leave_goesOn started (sound.ended (by simpa [or_comm] using ceased))
    · have up : pty.stopped = false := by
        simp only [Bool.or_eq_true, not_or, Bool.not_eq_true] at ceased
        exact ceased.2
      cases res with
      | connected =>
        have same : SameSessions pty (pty.handleConnected round attempt) :=
          ⟨rfl, rfl, rfl, rfl, rfl, rfl, rfl, rfl, fun stopped => absurd stopped (Bool.eq_false_iff.mp up)⟩
        refine sound.of_same same nofun connecting (fun unopened => ?_) nofun
        exact absurd started (Bool.eq_false_iff.mp unopened)
      | failed msg =>
        have unheld : pty.transportSessionId = none := sound.settledAt suspended
        have told (text : String) : (pty.writeBanner text).connecting = true := connecting
        dsimp only
        split_ifs
        · exact sound.goesOn (enterStopped_leave_goesOn unheld _) started unheld
        · cases attempt with
          | direct preferred ports busy =>
            exact sound.goesOn (seekCandidates_goesOn env (told _) _ _ _ _).after_banner started unheld
          | hint hintPort others =>
            exact sound.goesOn (offer_goesOn (told _) _ _ _ _).after_banner started unheld
          | picked port =>
            exact sound.goesOn (enterWaiting_leave_goesOn _ _ _).after_banner started unheld

section

variable (sound : pty.Sound)
include sound

theorem portChosen (choice : Except String (Option SerialPortInfo)) : (pty.portChosen choice).Sound := by
  unfold SmartSerialPty.portChosen
  split
  case h_2 => exact sound
  case h_1 round status candidateKey suspended =>
    have unheld : pty.transportSessionId = none := sound.settledAt suspended
    have started := sound.started suspended
    have chosen : ({ pty with prompting := false } : SmartSerialPty Id).Sound :=
      sound.of_quiet ⟨rfl, rfl, rfl, rfl, rfl, rfl, rfl, rfl, id⟩ rfl rfl rfl rfl
        fun unopened => (sound.fresh unopened).2.2.2
    dsimp only
    split_ifs
    · exact chosen.goesOn (leave_goesOn _) started unheld
    · split
      · exact chosen.goesOn (suspend_goesOn (chosen.connecting suspended) _) started unheld
      · exact chosen.goesOn (enterWaiting_leave_goesOn _ _ _) started unheld

theorem portResolved : pty.portResolved.Sound := by
  unfold SmartSerialPty.portResolved
  split
  case h_2 => exact sound
  case h_1 round path firstConnection note suspended =>
    refine sound.of_same ⟨rfl, rfl, rfl, rfl, rfl, rfl, rfl, rfl,
      id⟩ (sound.settledAt suspended) rfl (fun unopened => ?_)
      fun stopped => sound.ended (.inl stopped)
    exact absurd (sound.started suspended) (Bool.eq_false_iff.mp unopened)

theorem more_gone (disconnected unknown : List Id) : ({ pty with
      disconnected := pty.disconnected ++ disconnected
      unknown := pty.unknown ++ unknown } : SmartSerialPty Id).Sound :=
  { sound with
    accounted := fun sid opened => (sound.accounted sid opened).imp id <| Or.imp
      (Or.imp (List.mem_append_left _) (Or.imp (List.mem_append_left _) id)) id }

/-- The session held is let go where it is gone. -/
theorem handleTransportDisconnect (started : pty.started = true) (reason : String)
    (gone : pty.disposed = false → pty.stopped = false →
      ∀ sid, pty.transportSessionId = some sid → pty.Gone sid) :
    (pty.handleTransportDisconnect reason).Sound := by
  unfold SmartSerialPty.handleTransportDisconnect
  split_ifs with ceased
  · exact sound
  · simp only [Bool.or_eq_true, not_or, Bool.not_eq_true] at ceased
    set dropped : SmartSerialPty Id :=
      { pty with transportSessionId := none, currentPath := none, lastPromptedKey := none }
    have letGo : dropped.Sound :=
      { busy := sound.busy
        settled := settled_of_unheld rfl _
        fresh := fun unopened => absurd started (Bool.eq_false_iff.mp unopened)
        ended := fun _ => rfl
        letGo := sound.letGo
        accounted := fun sid opened => .inr <| (sound.accounted sid opened).elim
          (fun held => .inl (gone ceased.1 ceased.2 sid held)) id }
    obtain ⟨same, awaiting, connecting⟩ := enterWaiting_same
      (dropped.emit [.sessionChanged none, .activePortChanged none])
      ("Port " ++ pty.currentPath.getD pty.preferredPath ++
        " disconnected. Smart Follow is waiting for it or a safe replacement port to appear.")
      ("disconnect:" ++ pty.currentPath.getD pty.preferredPath ++ ":" ++ reason)
    have unheld := same.transportSessionId
    refine (letGo.emit _).of_same same (settled_of_unheld unheld _) ?_ (fun unopened => ?_) fun _ => unheld
    · rw [connecting, awaiting]
      exact sound.busy
    · rw [same.started] at unopened
      exact absurd started (Bool.eq_false_iff.mp unopened)

theorem markShuttingDown (reason : String) : (pty.markShuttingDown reason).Sound := by
  unfold SmartSerialPty.markShuttingDown
  split_ifs with ceased
  · exact sound
  · simp only [Bool.or_eq_true, not_or, Bool.not_eq_true] at ceased
    have none_yet : pty.shutDown = [] :=
      sound.letGo.resolve_right fun ⟨stopped, _⟩ => Bool.eq_false_iff.mp ceased.2 stopped
    refine
      { busy := sound.busy
        settled := settled_of_unheld rfl _
        fresh := fun unopened => ?_
        ended := fun _ => rfl
        letGo := ?_
        accounted := fun sid opened => .inr ?_ }
    · obtain ⟨nowhere, _, _, unwritten⟩ := sound.fresh unopened
      exact ⟨nowhere, rfl, rfl, unwritten⟩
    · cases held : pty.transportSessionId with
      | none => exact .inl (by rw [none_yet]; rfl)
      | some sid => exact .inr ⟨rfl, sid, by simp [SmartSerialPty.emit, none_yet]⟩
    · rcases sound.accounted sid opened with held | gone | before
      · exact .inr (List.mem_append_right _ (Option.mem_toList.mpr held))
      · exact .inl gone
      · exact .inr (List.mem_append_left _ before)

theorem dispose : pty.dispose.Sound := by
  unfold SmartSerialPty.dispose
  split_ifs
  · exact sound
  · refine
      { busy := sound.busy
        settled := settled_of_unheld rfl _
        fresh := fun unopened => ?_
        ended := fun _ => rfl
        letGo := sound.letGo
        accounted := fun sid opened => .inr ?_ }
    · obtain ⟨nowhere, _, _, unwritten⟩ := sound.fresh unopened
      exact ⟨nowhere, rfl, rfl, unwritten⟩
    · rcases sound.accounted sid opened with held | gone | before
      · exact .inl (.inr (.inr (List.mem_append_right _ (Option.mem_toList.mpr held))))
      · exact .inl (gone.imp id (Or.imp id (List.mem_append_left _)))
      · exact .inr before

theorem handleInput (now : Nat) : (pty.handleInput now).Sound := by
  have unwritten (unopened : pty.started = false) : pty.writes = [] := (sound.fresh unopened).2.2.2
  unfold SmartSerialPty.handleInput
  split_ifs
  · exact sound.of_quiet ⟨rfl, rfl, rfl, rfl, rfl, rfl, rfl, rfl, id⟩ rfl rfl rfl rfl unwritten
  · exact sound
  · exact sound.of_quiet ⟨rfl, rfl, rfl, rfl, rfl, rfl, rfl, rfl, id⟩ rfl rfl rfl rfl unwritten
  · exact sound
  · refine sound.of_quiet ⟨rfl, rfl, rfl, rfl, rfl, rfl, rfl, rfl, id⟩ rfl rfl rfl rfl fun unopened => ?_
    rw [unwritten unopened, (sound.fresh unopened).2.1]
    rfl

end

variable [DecidableEq Id]

theorem transportDisconnected (sound : pty.Sound) (sid : Id) (reason : String) :
    (pty.transportDisconnected sid reason).Sound := by
  have reported := sound.more_gone [sid] []
  rw [List.append_nil] at reported
  unfold SmartSerialPty.transportDisconnected
  dsimp only
  split_ifs with other
  · exact reported
  · simp only [Bool.or_eq_true, decide_eq_true_eq, not_or, not_not] at other
    have started : pty.started = true := by
      by_contra unopened
      have unheld := (sound.fresh (Bool.eq_false_iff.mpr unopened)).2.1
      rw [← other.2] at unheld
      cases unheld
    refine reported.handleTransportDisconnect started reason fun _ _ held same => .inl ?_
    rw [← other.2] at same
    exact List.mem_append_right _ (List.mem_singleton.mpr (Option.some.inj same).symm)

theorem transportError (sound : pty.Sound) (sid : Id) (msg : String) :
    (pty.transportError sid msg).Sound := by
  unfold SmartSerialPty.transportError
  split_ifs
  · exact sound
  · exact sound.emit _

/-- A write that the transport does not know the session of does no harm unless another
session is held by then. -/
theorem writeSettled (sound : pty.Sound) (sid : Id) (error : Option String)
    (current : ∀ msg, error = some msg → isUnknownSession msg = true → sid ∈ pty.writes →
      pty.disposed = false → pty.stopped = false →
      ∀ held, pty.transportSessionId = some held → held = sid) : (pty.writeSettled sid error).Sound := by
  unfold SmartSerialPty.writeSettled
  split_ifs with written
  · have settled : ({ pty with writes := pty.writes.erase sid } : SmartSerialPty Id).Sound := by
      refine sound.of_quiet ⟨rfl, rfl, rfl, rfl, rfl, rfl, rfl, rfl, id⟩ rfl rfl rfl rfl fun unopened => ?_
      rw [(sound.fresh unopened).2.2.2]
      rfl
    cases error with
    | none => exact settled
    | some msg =>
      dsimp only
      split_ifs with unknown
      · have answered := settled.more_gone [] [sid]
        rw [List.append_nil] at answered
        have started : pty.started = true := by
          by_contra unopened
          rw [(sound.fresh (Bool.eq_false_iff.mpr unopened)).2.2.2] at written
          cases written
        refine answered.handleTransportDisconnect started _ fun up running held same => .inr (.inl ?_)
        rw [current msg rfl unknown written up running held same]
        exact List.mem_append_right _ (List.mem_singleton_self sid)
      · exact settled.emit _
  · exact sound

end Sound

variable [DecidableEq Id]

def awaitsOpenPort (pty : SmartSerialPty Id) : Bool :=
  match pty.awaiting with
  | some (.openPort ..) => true
  | _ => false

/-- What `openPort` returns to a stopped terminal is taken up, or a failed write costs the session held by then. -/
def Slip (pty : SmartSerialPty Id) : SmartAct Id → Prop
  | .portOpened (.ok _) => pty.awaitsOpenPort = true ∧ pty.stopped = true ∧ pty.disposed = false
  | .writeSettled sessionId (some message) =>
    sessionId ∈ pty.writes ∧ isUnknownSession message = true ∧ pty.stopped = false ∧ pty.disposed = false ∧
      ∃ held ∈ pty.transportSessionId, held ≠ sessionId
  | _ => False

def NoSlip (env : Platform) (pty : SmartSerialPty Id) : List (SmartAct Id) → Prop
  | [] => True
  | act :: rest => ¬ pty.Slip act ∧ (pty.step env act).NoSlip env rest

theorem step_sound (env : Platform) (sound : pty.Sound) (act : SmartAct Id) (careful : ¬ pty.Slip act) :
    (pty.step env act).Sound := by
  cases act with
  | start => exact sound.start
  | pollTick => exact sound.pollTick
  | portsListed res busy => exact sound.portsListed env res busy
  | portOpened res =>
    refine sound.portOpened res fun round attempt sid suspended returned up => ?_
    rw [returned] at careful
    by_contra halted
    have awaits : pty.awaitsOpenPort = true := by rw [awaitsOpenPort, suspended]
    exact careful ⟨awaits, Bool.of_not_eq_false halted, up⟩
  | portClosed res => exact sound.portClosed res
  | openTried => exact sound.openTried env
  | portChosen choice => exact sound.portChosen choice
  | portResolved => exact sound.portResolved
  | transportDisconnected sid reason => exact sound.transportDisconnected sid reason
  | transportError sid msg => exact sound.transportError sid msg
  | setInputBlocked blocked =>
    exact sound.of_quiet ⟨rfl, rfl, rfl, rfl, rfl, rfl, rfl, rfl, id⟩ rfl rfl rfl rfl
      fun unopened => (sound.fresh unopened).2.2.2
  | handleInput now => exact sound.handleInput now
  | writeSettled sid error =>
    refine sound.writeSettled sid error fun msg failed unknown written up running held same => ?_
    rw [failed] at careful
    by_contra other
    exact careful ⟨written, unknown, running, up, held, same, other⟩
  | markShuttingDown reason => exact sound.markShuttingDown reason
  | dispose => exact sound.dispose

theorem run_sound (env : Platform) (sound : pty.Sound) (acts : List (SmartAct Id))
    (careful : pty.NoSlip env acts) : (pty.run env acts).Sound := by
  induction acts generalizing pty with
  | nil => exact sound
  | cons act rest ih => exact ih (step_sound env sound act careful.1) careful.2

end SmartSerialPty

end NexTerminal.Serial
