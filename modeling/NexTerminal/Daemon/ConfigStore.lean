import NexTerminal.Daemon.ConfigValues

/-! The daemon's configuration store (`config.rs`): one code path applies every
payload, whichever way it arrived. -/

namespace NexTerminal.Daemon

open Std Library Dhcp

/-- What the deserializer makes of one service's value: its settings, or why it
has none. -/
structure FromValue (Value : Type) where
  tftp : Value → Except String TftpConfig
  dhcp : Value → Except String DhcpConfig

/-- A `{tftp?, dhcp?}` payload, its keys in order. -/
abbrev Payload (Value : Type) := TreeMap Text Value compare

inductive ServiceId
  | tftp
  | dhcp
deriving DecidableEq

def ServiceId.key : ServiceId → Text
  | .tftp => "tftp".toList
  | .dhcp => "dhcp".toList

structure ConfigStore (Value : Type) where
  tftpRaw : Option Value := none
  tftp : TftpConfig := {}
  dhcpRaw : Option Value := none
  dhcp : DhcpConfig := {}

/-- A computation on the store that may be refused; what it wrote before the
refusal stays written. -/
abbrev StoreM (Value : Type) := ExceptT String (StateM (ConfigStore Value))

section
variable {Value : Type} [DecidableEq Value] (fromValue : FromValue Value)

def parseTftp (incoming : Value) : Except String TftpConfig := do
  let parsed ← (fromValue.tftp incoming).mapError fun e => s!"invalid tftp configuration: {e}"
  -- Checked here rather than at start, so that a rejected value is never stored.
  let _ ← parsed.bindAddress
  parsed.validateRoot
  return parsed

def parseDhcp (incoming : Value) : Except String DhcpConfig := do
  let parsed ← (fromValue.dhcp incoming).mapError fun e => s!"invalid dhcp configuration: {e}"
  let _ ← parsed.resolve
  return parsed

def checkKey (key : Text) : Except String Unit :=
  if key ≠ ServiceId.tftp.key ∧ key ≠ ServiceId.dhcp.key then
    .error s!"unknown service configuration: {String.ofList key}"
  else .ok ()

def checkKeys (configs : Payload Value) : Except String Unit := configs.keys.forM checkKey

/-- The settings to store for one service, when its value is new. -/
def serviceUpdate {Config : Type} (id : ServiceId) (raw : Option Value) (parse : Value → Except String Config)
    (configs : Payload Value) : Except String (Option (Config × Value)) :=
  match configs[id.key]? with
  | none => .ok none
  | some incoming =>
    if raw = some incoming then .ok none
    else (parse incoming).map fun parsed => some (parsed, incoming)

variable {fromValue} in
omit [DecidableEq Value] in
theorem parseTftp_ok {incoming : Value} {cfg : TftpConfig}
    (read : parseTftp fromValue incoming = .ok cfg) :
    fromValue.tftp incoming = .ok cfg ∧ (∃ addr, cfg.bindAddress = .ok addr) ∧
      cfg.validateRoot = .ok () := by
  unfold parseTftp at read
  obtain ⟨parsed, decoded, read⟩ := bind_eq_ok read
  obtain ⟨addr, bound, read⟩ := bind_eq_ok read
  obtain ⟨_, valid, read⟩ := bind_eq_ok read
  cases read
  cases at_value : fromValue.tftp incoming with
  | error msg => rw [at_value] at decoded; cases decoded
  | ok cfg =>
    rw [at_value] at decoded
    cases decoded
    exact ⟨rfl, ⟨addr, bound⟩, valid⟩

variable {fromValue} in
omit [DecidableEq Value] in
theorem parseDhcp_ok {incoming : Value} {cfg : DhcpConfig} (read : parseDhcp fromValue incoming = .ok cfg) :
    fromValue.dhcp incoming = .ok cfg ∧ ∃ options, cfg.resolve = .ok options := by
  unfold parseDhcp at read
  obtain ⟨parsed, decoded, read⟩ := bind_eq_ok read
  obtain ⟨options, resolved, read⟩ := bind_eq_ok read
  cases read
  cases at_value : fromValue.dhcp incoming with
  | error msg => rw [at_value] at decoded; cases decoded
  | ok cfg =>
    rw [at_value] at decoded
    cases decoded
    exact ⟨rfl, options, resolved⟩

section
variable {Config : Type} {id : ServiceId} {raw : Option Value}
  {parse : Value → Except String Config} {configs : Payload Value} {update : Option (Config × Value)}

section

variable (ran : serviceUpdate id raw parse configs = .ok update)
include ran

theorem serviceUpdate_cases :
    (update = none ∧ ∀ incoming, configs[id.key]? = some incoming → raw = some incoming) ∨
    ∃ parsed incoming, update = some (parsed, incoming) ∧ configs[id.key]? = some incoming ∧
      raw ≠ some incoming ∧ parse incoming = .ok parsed := by
  unfold serviceUpdate at ran
  split at ran
  · rename_i absent
    cases ran
    exact .inl ⟨rfl, fun incoming present => by rw [absent] at present; cases present⟩
  · rename_i incoming present
    split at ran
    · rename_i same
      cases ran
      exact .inl ⟨rfl, fun other also => by rw [same, ← present, also]⟩
    · rename_i differ
      cases read : parse incoming with
      | error msg => rw [read] at ran; cases ran
      | ok parsed =>
        rw [read] at ran
        cases ran
        exact .inr ⟨parsed, incoming, rfl, present, differ, read⟩

theorem serviceUpdate_raw : (update.map Prod.snd).or raw = configs[id.key]?.or raw := by
  obtain ⟨rfl, same⟩ | ⟨-, incoming, rfl, present, _⟩ := serviceUpdate_cases ran
  · cases sent : configs[id.key]? with
    | none => rfl
    | some incoming => simp [same incoming sent]
  · simp [present]

theorem serviceUpdate_changes : update.isSome ↔ configs[id.key]?.or raw ≠ raw := by
  rw [← serviceUpdate_raw ran]
  obtain ⟨rfl, _⟩ | ⟨-, incoming, rfl, _, differ, _⟩ := serviceUpdate_cases ran
  · simp
  · simpa using differ.symm

end

theorem serviceUpdate_again : serviceUpdate id (configs[id.key]?.or raw) parse configs = .ok none := by
  unfold serviceUpdate
  cases configs[id.key]? with
  | none => rfl
  | some incoming => simp

end

namespace ConfigStore

/-- Merges a payload, answering the ids that actually changed. Absent keys are
left alone. -/
def apply (configs : Payload Value) : StoreM Value (List ServiceId) := do
  checkKeys configs
  let store ← get
  let tftpUpdate ← serviceUpdate .tftp store.tftpRaw (parseTftp fromValue) configs
  let dhcpUpdate ← serviceUpdate .dhcp store.dhcpRaw (parseDhcp fromValue) configs
  let mut changed := []
  if let some (parsed, raw) := tftpUpdate then
    modify fun store => { store with tftp := parsed, tftpRaw := some raw }
    changed := changed ++ [ServiceId.tftp]
  if let some (parsed, raw) := dhcpUpdate then
    modify fun store => { store with dhcp := parsed, dhcpRaw := some raw }
    changed := changed ++ [ServiceId.dhcp]
  return changed

def commit (store : ConfigStore Value) (tftpUpdate : Option (TftpConfig × Value))
    (dhcpUpdate : Option (DhcpConfig × Value)) : ConfigStore Value where
  tftpRaw := (tftpUpdate.map Prod.snd).or store.tftpRaw
  tftp := (tftpUpdate.map Prod.fst).getD store.tftp
  dhcpRaw := (dhcpUpdate.map Prod.snd).or store.dhcpRaw
  dhcp := (dhcpUpdate.map Prod.fst).getD store.dhcp

omit [DecidableEq Value] in
theorem run_lift_bind {α β : Type} (checked : Except String α) (next : α → StoreM Value β)
    (store : ConfigStore Value) :
    ((liftM checked : StoreM Value α) >>= next).run.run store =
      match checked with
      | .error msg => (.error msg, store)
      | .ok a => (next a).run.run store := by
  cases checked <;> rfl

omit [DecidableEq Value] in
theorem run_get_bind {β : Type} (next : ConfigStore Value → StoreM Value β) (store : ConfigStore Value) :
    ((get : StoreM Value (ConfigStore Value)) >>= next).run.run store = (next store).run.run store :=
  rfl

/-- An application decides on both services before it writes either. -/
theorem apply_run (configs : Payload Value) (store : ConfigStore Value) :
    (apply fromValue configs).run.run store =
      match checkKeys configs with
      | .error msg => (.error msg, store)
      | .ok _ =>
        match serviceUpdate .tftp store.tftpRaw (parseTftp fromValue) configs with
        | .error msg => (.error msg, store)
        | .ok tftpUpdate =>
          match serviceUpdate .dhcp store.dhcpRaw (parseDhcp fromValue) configs with
          | .error msg => (.error msg, store)
          | .ok dhcpUpdate =>
            (.ok ((if tftpUpdate.isSome then [.tftp] else []) ++
              (if dhcpUpdate.isSome then [.dhcp] else [])), store.commit tftpUpdate dhcpUpdate) := by
  simp only [apply, run_lift_bind, run_get_bind]
  cases checkKeys configs with
  | error msg => rfl
  | ok _ =>
    cases serviceUpdate .tftp store.tftpRaw (parseTftp fromValue) configs with
    | error msg => rfl
    | ok tftpUpdate =>
      cases serviceUpdate .dhcp store.dhcpRaw (parseDhcp fromValue) configs with
      | error msg => rfl
      | ok dhcpUpdate => cases tftpUpdate <;> cases dhcpUpdate <;> rfl

def raw (store : ConfigStore Value) : ServiceId → Option Value
  | .tftp => store.tftpRaw
  | .dhcp => store.dhcpRaw

structure Resolvable (store : ConfigStore Value) : Prop where
  interface : ∃ address, store.tftp.bindAddress = .ok address
  root : store.tftp.validateRoot = .ok ()
  dhcp : ∃ options, store.dhcp.resolve = .ok options

/-- The store holds the values last accepted, read, and the defaults where there
is none. -/
structure Holds (store : ConfigStore Value) (last : ServiceId → Option Value) : Prop where
  raw : ∀ id, store.raw id = last id
  tftp : ∀ value, last .tftp = some value → fromValue.tftp value = .ok store.tftp
  tftpDefault : last .tftp = none → store.tftp = {}
  dhcp : ∀ value, last .dhcp = some value → fromValue.dhcp value = .ok store.dhcp
  dhcpDefault : last .dhcp = none → store.dhcp = {}

/-- Any sequence of payloads from the start, with the value each service was last
sent in an accepted one. -/
inductive Reach : ConfigStore Value → (ServiceId → Option Value) → Prop
  | start : Reach {} fun _ => none
  | accepted {store after : ConfigStore Value} {last : ServiceId → Option Value}
      {configs : Payload Value} {changed : List ServiceId} :
      Reach store last → (apply fromValue configs).run.run store = (.ok changed, after) →
        Reach after fun id => configs[id.key]?.or (last id)
  | refused {store after : ConfigStore Value} {last : ServiceId → Option Value}
      {configs : Payload Value} {message : String} :
      Reach store last → (apply fromValue configs).run.run store = (.error message, after) → Reach after last

def changedServices (before after : ConfigStore Value) : List ServiceId :=
  [.tftp, .dhcp].filter fun id => after.raw id ≠ before.raw id

section
variable {fromValue} {store after : ConfigStore Value} {configs : Payload Value}
  {last : ServiceId → Option Value}

theorem apply_error {msg : String}
    (ran : (apply fromValue configs).run.run store = (.error msg, after)) : after = store := by
  rw [apply_run] at ran
  split at ran
  · exact (congrArg Prod.snd ran).symm
  · split at ran
    · exact (congrArg Prod.snd ran).symm
    · split at ran
      · exact (congrArg Prod.snd ran).symm
      · cases ran

variable {changed : List ServiceId}

section

variable (ran : (apply fromValue configs).run.run store = (.ok changed, after))
include ran

theorem apply_ok : ∃ tftpUpdate dhcpUpdate, checkKeys configs = .ok () ∧
      serviceUpdate .tftp store.tftpRaw (parseTftp fromValue) configs = .ok tftpUpdate ∧
      serviceUpdate .dhcp store.dhcpRaw (parseDhcp fromValue) configs = .ok dhcpUpdate ∧
      changed = (if tftpUpdate.isSome then [.tftp] else []) ++ (if dhcpUpdate.isSome then [.dhcp] else []) ∧
      after = store.commit tftpUpdate dhcpUpdate := by
  rw [apply_run] at ran
  split at ran
  · cases ran
  · rename_i known
    split at ran
    · cases ran
    · rename_i tftpUpdate atTftp
      split at ran
      · cases ran
      · rename_i dhcpUpdate atDhcp
        cases ran
        exact ⟨tftpUpdate, dhcpUpdate, known, atTftp, atDhcp, rfl, rfl⟩

theorem apply_raw (id : ServiceId) : after.raw id = configs[id.key]?.or (store.raw id) := by
  obtain ⟨tftpUpdate, dhcpUpdate, _, atTftp, atDhcp, _, rfl⟩ := apply_ok ran
  cases id with
  | tftp => exact serviceUpdate_raw atTftp
  | dhcp => exact serviceUpdate_raw atDhcp

theorem apply_changed : changed = changedServices store after := by
  have tftpRaw := apply_raw ran .tftp
  have dhcpRaw := apply_raw ran .dhcp
  obtain ⟨tftpUpdate, dhcpUpdate, _, atTftp, atDhcp, rfl, _⟩ := apply_ok ran
  have tftpChanges : tftpUpdate.isSome ↔ after.raw .tftp ≠ store.raw .tftp :=
    tftpRaw ▸ serviceUpdate_changes atTftp
  have dhcpChanges : dhcpUpdate.isSome ↔ after.raw .dhcp ≠ store.raw .dhcp :=
    dhcpRaw ▸ serviceUpdate_changes atDhcp
  simp only [changedServices, List.filter_cons, ← tftpChanges, ← dhcpChanges]
  cases tftpUpdate <;> cases dhcpUpdate <;> rfl

theorem apply_again : (apply fromValue configs).run.run after = (.ok [], after) := by
  have tftpRaw : after.tftpRaw = _ := apply_raw ran .tftp
  have dhcpRaw : after.dhcpRaw = _ := apply_raw ran .dhcp
  obtain ⟨_, _, known, _⟩ := apply_ok ran
  rw [apply_run, known]
  simp only [tftpRaw, dhcpRaw, serviceUpdate_again]
  rfl

end

theorem resolve_default : ∃ options, ({} : DhcpConfig).resolve = .ok options := by
  have resolves : (({} : DhcpConfig).resolve).toBool = true := by decide
  cases resolved : ({} : DhcpConfig).resolve with
  | error msg => rw [resolved] at resolves; cases resolves
  | ok options => exact ⟨options, rfl⟩

omit [DecidableEq Value] in
theorem Resolvable.initial : Resolvable ({} : ConfigStore Value) where
  interface := ⟨_, rfl⟩
  root := rfl
  dhcp := resolve_default

theorem Resolvable.accept (resolvable : store.Resolvable)
    (ran : (apply fromValue configs).run.run store = (.ok changed, after)) : after.Resolvable := by
  obtain ⟨tftpUpdate, dhcpUpdate, _, atTftp, atDhcp, _, rfl⟩ := apply_ok ran
  have tftp : (∃ addr, (store.commit tftpUpdate dhcpUpdate).tftp.bindAddress = .ok addr) ∧
      (store.commit tftpUpdate dhcpUpdate).tftp.validateRoot = .ok () := by
    obtain ⟨rfl, _⟩ | ⟨parsed, incoming, rfl, _, _, read⟩ := serviceUpdate_cases atTftp
    · exact ⟨resolvable.interface, resolvable.root⟩
    · exact (parseTftp_ok read).2
  refine ⟨tftp.1, tftp.2, ?_⟩
  obtain ⟨rfl, _⟩ | ⟨parsed, incoming, rfl, _, _, read⟩ := serviceUpdate_cases atDhcp
  · exact resolvable.dhcp
  · exact (parseDhcp_ok read).2

theorem Holds.accept (holds : Holds fromValue store last)
    (ran : (apply fromValue configs).run.run store = (.ok changed, after)) :
    Holds fromValue after fun id => configs[id.key]?.or (last id) := by
  have raw : ∀ id, after.raw id = configs[id.key]?.or (last id) := by
    intro id
    rw [apply_raw ran, holds.raw]
  obtain ⟨tftpUpdate, dhcpUpdate, _, atTftp, atDhcp, _, rfl⟩ := apply_ok ran
  have tftp : ∀ value, (store.commit tftpUpdate dhcpUpdate).tftpRaw = some value →
      fromValue.tftp value = .ok (store.commit tftpUpdate dhcpUpdate).tftp := by
    intro value stored
    obtain ⟨rfl, _⟩ | ⟨parsed, incoming, rfl, _, _, read⟩ := serviceUpdate_cases atTftp
    · exact holds.tftp value (by rw [← holds.raw]; exact stored)
    · cases stored
      exact (parseTftp_ok read).1
  have dhcp : ∀ value, (store.commit tftpUpdate dhcpUpdate).dhcpRaw = some value →
      fromValue.dhcp value = .ok (store.commit tftpUpdate dhcpUpdate).dhcp := by
    intro value stored
    obtain ⟨rfl, _⟩ | ⟨parsed, incoming, rfl, _, _, read⟩ := serviceUpdate_cases atDhcp
    · exact holds.dhcp value (by rw [← holds.raw]; exact stored)
    · cases stored
      exact (parseDhcp_ok read).1
  refine ⟨raw, fun value sent => tftp value (by rw [← sent, ← raw]; rfl), ?_,
    fun value sent => dhcp value (by rw [← sent, ← raw]; rfl), ?_⟩
  · intro never
    obtain ⟨rfl, _⟩ | ⟨-, incoming, rfl, present, _⟩ := serviceUpdate_cases atTftp
    · exact holds.tftpDefault (Option.or_eq_none_iff.mp never).2
    · rw [present] at never; cases never
  · intro never
    obtain ⟨rfl, _⟩ | ⟨-, incoming, rfl, present, _⟩ := serviceUpdate_cases atDhcp
    · exact holds.dhcpDefault (Option.or_eq_none_iff.mp never).2
    · rw [present] at never; cases never

theorem Reach.resolvable (reach : Reach fromValue store last) : store.Resolvable := by
  induction reach with
  | start => exact Resolvable.initial
  | accepted _ ran ih => exact ih.accept ran
  | refused _ ran ih => exact apply_error ran ▸ ih

theorem Reach.holds (reach : Reach fromValue store last) : Holds fromValue store last := by
  induction reach with
  | start => exact ⟨fun id => by cases id <;> rfl, nofun, fun _ => rfl, nofun, fun _ => rfl⟩
  | accepted _ ran ih => exact ih.accept ran
  | refused _ ran ih => exact apply_error ran ▸ ih

/-- What any payloads leave is resolvable and was last accepted; the next is refused without a trace or reports its
changes. -/
theorem apply_atomic (reach : Reach fromValue store last) :
    store.Resolvable ∧ Holds fromValue store last ∧ ∀ configs,
      (∃ message, (apply fromValue configs).run.run store = (.error message, store)) ∨
      ∃ after, (apply fromValue configs).run.run store = (.ok (changedServices store after), after) ∧
        (apply fromValue configs).run.run after = (.ok [], after) := by
  refine ⟨reach.resolvable, reach.holds, fun configs => ?_⟩
  rcases ran : (apply fromValue configs).run.run store with ⟨result, after⟩
  cases result with
  | error message =>
    exact .inl ⟨message, by rw [apply_error ran]⟩
  | ok changed =>
    exact .inr ⟨after, by rw [← apply_changed ran], apply_again ran⟩

end

theorem run_of_toBool {Value : Type} {store : ConfigStore Value}
    {run : Except String (List ServiceId) × ConfigStore Value} (accepted : run.1.toBool = true)
    (at_store : run.2 = store) : ∃ changed, run = (.ok changed, store) := by
  obtain ⟨res, after⟩ := run
  cases res with
  | error msg => cases accepted
  | ok changed => exact ⟨changed, by rw [← at_store]⟩

def oneField : FromValue Text where
  tftp interface := .ok { interface := some interface }
  dhcp gateway := .ok { gateway := some gateway }

def bothServices (interface gateway : String) : Payload Text :=
  ((∅ : Payload Text).insert ServiceId.tftp.key interface.toList).insert ServiceId.dhcp.key
    gateway.toList

theorem apply_atomic_bad_gateway :
    ∃ store : ConfigStore Text, store.Resolvable ∧ store.raw .tftp = some "10.0.0.1".toList ∧
      ∃ message, (apply oneField (bothServices "10.0.0.2" "nowhere")).run.run store = (.error message, store) := by
  have accepted : ∃ changed, (apply oneField (bothServices "10.0.0.1" "192.168.2.1")).run.run {} =
      (.ok changed, ((apply oneField (bothServices "10.0.0.1" "192.168.2.1")).run.run {}).2) :=
    run_of_toBool (by decide) rfl
  obtain ⟨changed, first⟩ := accepted
  obtain ⟨resolvable, holds, next⟩ := apply_atomic (.accepted .start first)
  refine ⟨_, resolvable, (holds.raw .tftp).trans (by decide), ?_⟩
  rcases next (bothServices "10.0.0.2" "nowhere") with refused | ⟨after, accepted, _⟩
  · exact refused
  · have bad : ((apply oneField (bothServices "10.0.0.2" "nowhere")).run.run
        ((apply oneField (bothServices "10.0.0.1" "192.168.2.1")).run.run {}).2).1.toBool = false := by
      decide
    rw [accepted] at bad
    cases bad

end ConfigStore

end

end NexTerminal.Daemon
