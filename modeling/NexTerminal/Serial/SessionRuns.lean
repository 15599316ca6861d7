import NexTerminal.Serial.SessionKept

namespace NexTerminal.Serial

variable {Id : Type} [DecidableEq Id]

namespace SmartSerialPty

def Over (pty : SmartSerialPty Id) : Prop := pty.stopped = true ∨ pty.disposed = true

variable {pty : SmartSerialPty Id}

omit [DecidableEq Id] in
theorem Over.guard (ceased : pty.Over) : (pty.disposed || pty.stopped) = true := by
  rw [Bool.or_eq_true]
  exact ceased.symm

omit [DecidableEq Id] in
theorem Over.ensureConnected (ceased : pty.Over) (reason : Reason) : (pty.ensureConnected reason).Over := by
  rw [SmartSerialPty.ensureConnected, ceased.guard, Bool.true_or, Bool.true_or, if_pos rfl]
  exact ceased

omit [DecidableEq Id] in
theorem Over.handleTransportDisconnect (ceased : pty.Over) (reason : String) :
    (pty.handleTransportDisconnect reason).Over := by
  rw [SmartSerialPty.handleTransportDisconnect, ceased.guard, if_pos rfl]
  exact ceased

/-- A terminal that is over stays so. -/
theorem Over.step (env : Platform) (ceased : pty.Over) (act : SmartAct Id) : (pty.step env act).Over := by
  cases act with
  | start =>
    show pty.start.Over
    unfold SmartSerialPty.start
    split_ifs
    · exact ceased
    · refine Over.ensureConnected ?_ _
      exact ceased
  | pollTick =>
    show pty.pollTick.Over
    unfold SmartSerialPty.pollTick
    split_ifs
    · exact ceased.ensureConnected _
    · exact ceased
  | portsListed res busy =>
    show (pty.portsListed env res busy).Over
    unfold SmartSerialPty.portsListed
    split
    · rw [ceased.guard, if_pos rfl]
      exact ceased
    · exact ceased
  | portOpened res =>
    show (pty.portOpened res).Over
    unfold SmartSerialPty.portOpened
    split
    · cases res with
      | error msg => exact ceased
      | ok sid =>
        dsimp only
        split_ifs <;> exact ceased
    · exact ceased
  | portClosed res =>
    show (pty.portClosed res).Over
    unfold SmartSerialPty.portClosed
    split
    · cases res <;> exact ceased
    · exact ceased
  | openTried =>
    show (pty.openTried env).Over
    unfold SmartSerialPty.openTried
    split
    · rw [ceased.guard, if_pos rfl]
      exact ceased
    · exact ceased
  | portChosen choice =>
    show (pty.portChosen choice).Over
    unfold SmartSerialPty.portChosen
    split
    · dsimp only
      rw [ceased.guard, if_pos rfl]
      exact ceased
    · exact ceased
  | portResolved =>
    show pty.portResolved.Over
    unfold SmartSerialPty.portResolved
    split <;> exact ceased
  | transportDisconnected sid reason =>
    show (pty.transportDisconnected sid reason).Over
    unfold SmartSerialPty.transportDisconnected
    dsimp only
    split_ifs
    · exact ceased
    · refine Over.handleTransportDisconnect ?_ reason
      exact ceased
  | transportError sid msg =>
    show (pty.transportError sid msg).Over
    unfold SmartSerialPty.transportError
    split_ifs <;> exact ceased
  | setInputBlocked blocked => exact ceased
  | handleInput now =>
    show (pty.handleInput now).Over
    unfold SmartSerialPty.handleInput
    split_ifs <;> exact ceased
  | writeSettled sid error =>
    show (pty.writeSettled sid error).Over
    unfold SmartSerialPty.writeSettled
    split_ifs
    · cases error with
      | none => exact ceased
      | some msg =>
        dsimp only
        split_ifs
        · refine Over.handleTransportDisconnect ?_ _
          exact ceased
        · exact ceased
    · exact ceased
  | markShuttingDown reason =>
    show (pty.markShuttingDown reason).Over
    rw [SmartSerialPty.markShuttingDown, ceased.guard, if_pos rfl]
    exact ceased
  | dispose =>
    show pty.dispose.Over
    unfold SmartSerialPty.dispose
    split_ifs
    · exact ceased
    · exact .inr rfl

theorem Over.run (env : Platform) (ceased : pty.Over) (acts : List (SmartAct Id)) :
    (pty.run env acts).Over := by
  induction acts generalizing pty with
  | nil => exact ceased
  | cons act rest ih => exact ih (ceased.step env act)

section

variable (pty)

section

omit [DecidableEq Id]

theorem enterStopped_shutDown (msg : String) : (pty.enterStopped msg).shutDown = pty.shutDown := by
  unfold enterStopped
  split_ifs <;> rfl

theorem enterWaiting_shutDown (msg key : String) :
    (pty.enterWaiting msg key).shutDown = pty.shutDown := (pty.enterWaiting_same msg key).1.shutDown

theorem offer_shutDown (round : Round) (status : PreferredStatus)
    (hintMatches others : List SerialPortInfo) :
    (pty.offer round status hintMatches others).shutDown = pty.shutDown := by
  unfold offer
  dsimp only
  split_ifs
  · cases status <;> exact pty.enterWaiting_shutDown _ _
  · cases status <;> exact pty.enterWaiting_shutDown _ _
  · rfl

theorem seekCandidates_shutDown (env : Platform) (round : Round)
    (status : PreferredStatus) (busy : List String) (ports : List SerialPortInfo) :
    (pty.seekCandidates env round status busy ports).shutDown = pty.shutDown := by
  unfold seekCandidates
  dsimp only
  split
  · rfl
  · exact pty.offer_shutDown _ _ _ _
  · exact pty.offer_shutDown _ _ _ _

theorem ensureConnected_shutDown (reason : Reason) : (pty.ensureConnected reason).shutDown = pty.shutDown := by
  unfold ensureConnected
  split_ifs <;> rfl

theorem handleTransportDisconnect_shutDown (reason : String) :
    (pty.handleTransportDisconnect reason).shutDown = pty.shutDown := by
  unfold handleTransportDisconnect
  dsimp only
  split_ifs
  · rfl
  · exact enterWaiting_shutDown _ _ _

theorem start_shutDown : pty.start.shutDown = pty.shutDown := by
  unfold start
  split_ifs
  · rfl
  · exact ensureConnected_shutDown _ _

theorem pollTick_shutDown : pty.pollTick.shutDown = pty.shutDown := by
  unfold pollTick
  split_ifs
  · exact pty.ensureConnected_shutDown _
  · rfl

theorem portsListed_shutDown (env : Platform) (res : Except String (List SerialPortInfo)) (busy : List String) :
    (pty.portsListed env res busy).shutDown = pty.shutDown := by
  unfold portsListed
  split
  · split_ifs
    · rfl
    · cases res with
      | error msg =>
        dsimp only
        split_ifs
        · exact pty.enterStopped_shutDown _
        · exact pty.enterWaiting_shutDown _ _
      | ok ports =>
        dsimp only
        split
        · exact pty.seekCandidates_shutDown env _ _ _ _
        · split_ifs
          · exact pty.seekCandidates_shutDown env _ _ _ _
          · rfl
  · rfl

theorem portOpened_shutDown (res : Except String Id) : (pty.portOpened res).shutDown = pty.shutDown := by
  unfold portOpened
  split
  · cases res with
    | error msg => rfl
    | ok sid =>
      dsimp only
      split_ifs <;> rfl
  · rfl

theorem portClosed_shutDown (res : Except String Unit) : (pty.portClosed res).shutDown = pty.shutDown := by
  unfold portClosed
  split
  · cases res <;> rfl
  · rfl

theorem openTried_shutDown (env : Platform) : (pty.openTried env).shutDown = pty.shutDown := by
  unfold openTried
  split
  case h_2 => rfl
  case h_1 round attempt res _ =>
    split_ifs
    · rfl
    · cases res with
      | connected => rfl
      | failed msg =>
        dsimp only
        split_ifs
        · exact pty.enterStopped_shutDown _
        · cases attempt with
          | direct preferred ports busy => exact seekCandidates_shutDown _ env _ _ _ _
          | hint hintPort others => exact offer_shutDown _ _ _ _ _
          | picked port => exact enterWaiting_shutDown _ _ _

theorem portChosen_shutDown (choice : Except String (Option SerialPortInfo)) :
    (pty.portChosen choice).shutDown = pty.shutDown := by
  unfold portChosen
  split
  · dsimp only
    split_ifs
    · rfl
    · split
      · rfl
      · exact enterWaiting_shutDown _ _ _
  · rfl

theorem portResolved_shutDown : pty.portResolved.shutDown = pty.shutDown := by
  unfold portResolved
  split <;> rfl

theorem handleInput_shutDown (now : Nat) : (pty.handleInput now).shutDown = pty.shutDown := by
  unfold handleInput
  split_ifs <;> rfl

theorem dispose_shutDown : pty.dispose.shutDown = pty.shutDown := by
  unfold dispose
  split_ifs <;> rfl

end

theorem transportDisconnected_shutDown (sid : Id) (reason : String) :
    (pty.transportDisconnected sid reason).shutDown = pty.shutDown := by
  unfold transportDisconnected
  dsimp only
  split_ifs
  · rfl
  · exact handleTransportDisconnect_shutDown _ _

theorem transportError_shutDown (sid : Id) (msg : String) :
    (pty.transportError sid msg).shutDown = pty.shutDown := by
  unfold transportError
  split_ifs <;> rfl

theorem writeSettled_shutDown (sid : Id) (error : Option String) :
    (pty.writeSettled sid error).shutDown = pty.shutDown := by
  unfold writeSettled
  split_ifs
  · cases error with
    | none => rfl
    | some msg =>
      dsimp only
      split_ifs
      · exact handleTransportDisconnect_shutDown _ _
      · rfl
  · rfl

end

theorem step_shutDown (env : Platform) (pty : SmartSerialPty Id) (act : SmartAct Id) :
    (pty.step env act).shutDown = pty.shutDown ∨
      ∃ reason, act = .markShuttingDown reason ∧
        (pty.step env act).shutDown = pty.shutDown ++ pty.transportSessionId.toList := by
  cases act with
  | start => exact .inl (pty.start_shutDown)
  | pollTick => exact .inl (pty.pollTick_shutDown)
  | portsListed res busy => exact .inl (pty.portsListed_shutDown env res busy)
  | portOpened res => exact .inl (pty.portOpened_shutDown res)
  | portClosed res => exact .inl (pty.portClosed_shutDown res)
  | openTried => exact .inl (pty.openTried_shutDown env)
  | portChosen choice => exact .inl (pty.portChosen_shutDown choice)
  | portResolved => exact .inl (pty.portResolved_shutDown)
  | transportDisconnected sid reason => exact .inl (pty.transportDisconnected_shutDown sid reason)
  | transportError sid msg => exact .inl (pty.transportError_shutDown sid msg)
  | setInputBlocked blocked => exact .inl rfl
  | handleInput now => exact .inl (pty.handleInput_shutDown now)
  | writeSettled sid error => exact .inl (pty.writeSettled_shutDown sid error)
  | markShuttingDown reason =>
    show (pty.markShuttingDown reason).shutDown = _ ∨ _
    by_cases ceased : (pty.disposed || pty.stopped) = true
    · rw [markShuttingDown, if_pos ceased]
      exact .inl rfl
    · refine .inr ⟨reason, rfl, ?_⟩
      show (pty.markShuttingDown reason).shutDown = _
      rw [markShuttingDown, if_neg ceased]
      rfl
  | dispose => exact .inl (pty.dispose_shutDown)

omit [DecidableEq Id] in
theorem Sound.live (sound : pty.Sound) {sid : Id} (live : pty.Live sid) :
    pty.transportSessionId = some sid ∨ pty.stopped = true ∧ pty.shutDown = [sid] := by
  refine (sound.accounted sid live.1).imp id fun rest => ?_
  have mem := rest.resolve_left live.2
  rcases sound.letGo with none_yet | ⟨stopped, other, only⟩
  · rw [none_yet] at mem
    cases mem
  · rw [only, List.mem_singleton] at mem
    rw [mem]
    exact ⟨stopped, only⟩

instance (pty : SmartSerialPty Id) (sessionId : Id) : Decidable (pty.Gone sessionId) :=
  inferInstanceAs (Decidable (_ ∨ _ ∨ _))

instance (pty : SmartSerialPty Id) : (act : SmartAct Id) → Decidable (pty.Slip act)
  | .portOpened (.ok _) => inferInstanceAs (Decidable (_ ∧ _ ∧ _))
  | .writeSettled _ (some _) => inferInstanceAs (Decidable (_ ∧ _ ∧ _ ∧ _ ∧ ∃ _ ∈ _, _))
  | .portOpened (.error _) | .writeSettled _ none | .start | .pollTick | .portsListed .. | .portClosed _ | .openTried
  | .portChosen _ | .portResolved | .transportDisconnected .. | .transportError .. | .setInputBlocked _ | .handleInput _
  | .markShuttingDown _ | .dispose => isFalse nofun

instance decidableNoSlip (env : Platform) : (pty : SmartSerialPty Id) → (acts : List (SmartAct Id)) →
    Decidable (pty.NoSlip env acts)
  | _, [] => isTrue trivial
  | pty, act :: rest =>
    have := decidableNoSlip env (pty.step env act) rest
    inferInstanceAs (Decidable (¬ pty.Slip act ∧ (pty.step env act).NoSlip env rest))

def Lost (pty : SmartSerialPty Id) : Prop :=
  ∃ sessionId ∈ pty.opened, pty.transportSessionId ≠ some sessionId ∧ ¬ pty.Gone sessionId

instance (pty : SmartSerialPty Id) : Decidable pty.Lost := inferInstanceAs (Decidable (∃ _ ∈ _, _))

/-- In every run without slips, each session opened is held, gone, or was held at the shutdown; at most one is alive.
-/
theorem sessions_kept (env : Platform) (profile : SerialProfile) (acts : List (SmartAct Id))
    (careful : (create profile : SmartSerialPty Id).NoSlip env acts) :
    let pty := (create profile).run env acts
    (∀ sessionId ∈ pty.opened,
      pty.transportSessionId = some sessionId ∨ pty.Gone sessionId ∨ sessionId ∈ pty.shutDown) ∧
    (∀ first second, pty.Live first → pty.Live second → first = second) ∧
    (pty.Over → (∀ sessionId, pty.Live sessionId → sessionId ∈ pty.shutDown) ∧
      ∀ more, pty.NoSlip env more → (pty.run env more).transportSessionId = none) ∧
    ∀ act, (pty.step env act).shutDown = pty.shutDown ∨
      ∃ reason, act = .markShuttingDown reason ∧
        (pty.step env act).shutDown = pty.shutDown ++ pty.transportSessionId.toList := by
  intro pty
  have sound : pty.Sound := run_sound env (.create profile) acts careful
  refine ⟨sound.accounted, fun first second live other => ?_, fun ceased => ⟨fun sessionId live => ?_, ?_⟩,
    step_shutDown env pty⟩
  · rcases sound.live live with held | ⟨stopped, only⟩ <;> rcases sound.live other with holds | ⟨halted, alone⟩
    · exact Option.mem_unique held holds
    · rw [sound.ended (.inl halted)] at held
      cases held
    · rw [sound.ended (.inl stopped)] at holds
      cases holds
    · exact (List.cons.inj (only.symm.trans alone)).1
  · rcases sound.live live with held | ⟨_, only⟩
    · rw [sound.ended ceased] at held
      cases held
    · rw [only]
      exact List.mem_singleton_self sessionId
  · intro more on
    exact (run_sound env sound more on).ended (ceased.run env more)

def opens (path : String) (sessionId : Id) : List (SmartAct Id) :=
  [.portsListed (.ok [{ path }]) [], .portOpened (.ok sessionId), .openTried, .portResolved]

def sampleProfile : SerialProfile :=
  { name := "Console", path := "COM7", baudRate := 9600, dataBits := 8, stopBits := 1, parity := .none }

def samplePlatform : Platform := { win32 := false, toLowerCase := id }

theorem sessions_kept_sample :
    let acts : List (SmartAct Nat) := .start :: opens "COM7" 1 ++ [.handleInput 5, .transportDisconnected 1 "gone",
      .writeSettled 1 (some "unknown serial session"), .pollTick] ++ opens "COM7" 2 ++
        [.markShuttingDown "bye", .dispose]
    let pty := (create sampleProfile).run samplePlatform acts
    pty.opened = [1, 2] ∧ pty.Over ∧ ∀ sessionId, pty.Live sessionId → sessionId ∈ pty.shutDown :=
  ⟨by decide, .inr (by decide),
    ((sessions_kept samplePlatform sampleProfile _ (by decide)).2.2.1 (.inr (by decide))).1⟩

/-- A session that opens after the shutdown is taken up, and a late write failure costs the one after. -/
theorem session_lost :
    let run (acts : List (SmartAct Nat)) := (create sampleProfile).run samplePlatform acts
    (run (.start :: opens "COM7" 1 ++ [.markShuttingDown "bye"])).Lost ∧
    (run [.start, .portsListed (.ok [{ path := "COM7" }]) [], .markShuttingDown "bye",
      .portOpened (.ok 1), .openTried]).transportSessionId = some 1 ∧
    let late := run (.start :: opens "COM7" 1 ++ [.handleInput 5, .transportDisconnected 1 "gone", .pollTick] ++
      opens "COM7" 2 ++ [.writeSettled 1 (some "unknown serial session"), .pollTick] ++ opens "COM7" 3)
    late.Lost ∧ late.Live 2 ∧ late.Live 3 :=
  ⟨by decide, by decide, by decide,
    ⟨by decide, by decide⟩, by decide, by decide⟩

end SmartSerialPty

end NexTerminal.Serial
