import Mathlib.Data.List.Basic
import NexTerminal.Inventory.SyncPlan

namespace NexTerminal.Inventory

open Library Exchange

variable {env : SyncPlatform} {input : ComputeSyncPlanInput} {device : TreeDevice} {owned : ServerConfig}

def addOwner (map : SeqMap Text ServerConfig) (server : ServerConfig) : SeqMap Text ServerConfig :=
  match server.externalId with
  | none => map
  | some externalId => if map.has externalId then map else map.set externalId server

variable {externalId : Text}

theorem addOwner_mem {map : SeqMap Text ServerConfig} {server owner : ServerConfig}
    (hit : (addOwner map server).get? externalId = some owner) :
    map.get? externalId = some owner ∨ owner = server ∧ server.externalId = some externalId := by
  unfold addOwner at hit
  cases named : server.externalId with
  | none =>
    rw [named] at hit
    exact .inl hit
  | some other =>
    simp only [named] at hit
    split at hit
    · exact .inl hit
    · rw [SeqMap.get?_set] at hit
      split at hit
      · next same =>
        subst same
        exact .inr ⟨(Option.some.inj hit).symm, rfl⟩
      · exact .inl hit

theorem owned_spec (hit : input.ownedByExternalId.get? externalId = some owned) :
    owned ∈ input.currentServers ∧ input.isLinked owned = true ∧ owned.externalId = some externalId := by
  have each : ∀ (servers : List ServerConfig) (map : SeqMap Text ServerConfig),
      (servers.foldl addOwner map).get? externalId = some owned →
      map.get? externalId = some owned ∨ owned ∈ servers ∧ owned.externalId = some externalId := by
    intro servers
    induction servers with
    | nil => exact fun map held => .inl held
    | cons server rest ih =>
      intro map held
      rcases ih (addOwner map server) held with pre | ⟨mem, named⟩
      · rcases addOwner_mem pre with old | ⟨rfl, named⟩
        · exact .inl old
        · exact .inr ⟨List.mem_cons_self, named⟩
      · exact .inr ⟨List.mem_cons_of_mem _ mem, named⟩
  rcases each _ .empty hit with none | ⟨mem, named⟩
  · cases none
  · obtain ⟨known, linked⟩ := List.mem_filter.mp mem
    exact ⟨known, linked, named⟩

theorem owned_origin (hit : input.ownedByExternalId.get? externalId = some owned) :
    ∃ origin, owned.origin = some origin ∧ origin.sourceId = input.source.id ∧
      origin.externalId = externalId := by
  obtain ⟨_, linked, named⟩ := owned_spec hit
  unfold ComputeSyncPlanInput.isLinked at linked
  unfold ServerConfig.externalId at named
  cases held : owned.origin with
  | none =>
    rw [held] at linked
    cases linked
  | some origin =>
    rw [held] at linked named
    exact ⟨origin, rfl, by simpa using linked, Option.some.inj named⟩

theorem mem_owned_values : owned ∈ input.ownedByExternalId.values ↔
    ∃ externalId, input.ownedByExternalId.get? externalId = some owned := SeqMap.mem_values

def namedDevices : List (Text × Text) → List TreeDevice → List TreeDevice
  | _, [] => []
  | seen, device :: rest =>
    if device.externalId.isEmpty || device.name.isEmpty then namedDevices seen rest
    else
      match seen.lookup device.externalId with
      | some _ => namedDevices seen rest
      | none => device :: namedDevices ((device.externalId, device.name) :: seen) rest

theorem planDevices_flatMap {α : Type*} (pick : Findings → List α)
    (append : ∀ first second, pick (first ++ second) = pick first ++ pick second)
    (quiet : ∀ warnings ids skipped, pick { warnings, matchedRuleIds := ids, emptyNameSkipped := skipped } = [])
    (seen : List (Text × Text)) (devices : List TreeDevice) :
    pick (planDevices env input seen devices) =
      (namedDevices seen devices).flatMap fun device => pick (planDevice env input device) := by
  induction devices generalizing seen with
  | nil => exact quiet [] [] []
  | cons device rest ih =>
    unfold planDevices namedDevices
    by_cases anonymous : device.externalId.isEmpty = true
    · simp only [anonymous, if_true]
      rw [append, ih]
      exact congrArg (· ++ _) (quiet _ [] [])
    by_cases unnamed : device.name.isEmpty = true
    · simp only [Bool.eq_false_iff.2 anonymous, unnamed, Bool.false_eq_true, if_false, if_true]
      rw [append, append, quiet [] _ [], ih, List.nil_append]
      split
      · exact congrArg (· ++ _) (quiet _ [] [])
      · exact congrArg (· ++ _) (quiet [] [] _)
    simp only [Bool.eq_false_iff.2 anonymous, Bool.eq_false_iff.2 unnamed, Bool.false_eq_true, if_false,
      Bool.or_false]
    cases seen.lookup device.externalId with
    | some firstName =>
      rw [append, append, quiet [] _ [], ih, List.nil_append]
      exact congrArg (· ++ _) (quiet _ [] [])
    | none =>
      rw [append, append, quiet [] _ [], ih, List.nil_append, List.flatMap_cons]

theorem namedDevices_spec (seen : List (Text × Text)) (devices : List TreeDevice) :
    (∀ device ∈ namedDevices seen devices,
      device ∈ devices ∧ device.externalId ≠ [] ∧ device.name ≠ [] ∧
        seen.lookup device.externalId = none) ∧
    ((namedDevices seen devices).map TreeDevice.externalId).Nodup := by
  induction devices generalizing seen with
  | nil => exact ⟨fun _ member => absurd member List.not_mem_nil, List.nodup_nil⟩
  | cons device rest ih =>
    have skipped : (∀ other ∈ namedDevices seen rest,
        other ∈ device :: rest ∧ other.externalId ≠ [] ∧ other.name ≠ [] ∧
          seen.lookup other.externalId = none) ∧ ((namedDevices seen rest).map TreeDevice.externalId).Nodup :=
      ⟨fun other member => ⟨List.mem_cons_of_mem _ ((ih seen).1 other member).1, ((ih seen).1 other member).2⟩,
        (ih seen).2⟩
    unfold namedDevices
    split
    · exact skipped
    · next named =>
      rw [Bool.not_eq_true, Bool.or_eq_false_iff] at named
      split
      · exact skipped
      · next fresh =>
        obtain ⟨later, nodup⟩ := ih ((device.externalId, device.name) :: seen)
        have ne : ∀ other ∈ namedDevices ((device.externalId, device.name) :: seen) rest,
            other.externalId ≠ device.externalId ∧ seen.lookup other.externalId = none := by
          intro other member
          have unseen := (later other member).2.2.2
          rw [List.lookup_cons] at unseen
          by_cases same : other.externalId = device.externalId
          · rw [same, beq_self_eq_true] at unseen
            cases unseen
          · rw [beq_eq_false_iff_ne.mpr same] at unseen
            exact ⟨same, unseen⟩
        refine ⟨fun other member => ?_, ?_⟩
        · rcases List.mem_cons.mp member with rfl | member
          · refine ⟨List.mem_cons_self, ?_, ?_, fresh⟩
            · simpa using named.1
            · simpa using named.2
          · obtain ⟨known, identified, called, _⟩ := later other member
            exact ⟨List.mem_cons_of_mem _ known, identified, called, (ne other member).2⟩
        · rw [List.map_cons, List.nodup_cons]
          refine ⟨fun again => ?_, nodup⟩
          obtain ⟨other, member, same⟩ := List.mem_map.mp again
          exact (ne other member).1 same

def decidedDevices (input : ComputeSyncPlanInput) : List TreeDevice := namedDevices [] input.tree.devices

theorem eq_of_externalId {other : TreeDevice} (mem : device ∈ decidedDevices input)
    (member' : other ∈ decidedDevices input) (same : device.externalId = other.externalId) : device = other :=
  List.inj_on_of_nodup_map (namedDevices_spec [] _).2 mem member' same

theorem present_of_decided (mem : device ∈ decidedDevices input) :
    device.externalId ∈ input.presentExternalIds := by
  obtain ⟨known, identified, _⟩ := (namedDevices_spec [] _).1 device mem
  refine List.mem_filter.mpr ⟨List.mem_map.mpr ⟨device, known, rfl⟩, ?_⟩
  simpa using identified

namespace Findings

variable (first second : Findings)

@[simp] theorem append_updates : (first ++ second).updates = first.updates ++ second.updates := rfl

@[simp] theorem append_adds : (first ++ second).adds = first.adds ++ second.adds := rfl

@[simp] theorem append_unchanged : (first ++ second).unchanged = first.unchanged ++ second.unchanged := rfl

@[simp] theorem append_unlinkedByProfile :
    (first ++ second).unlinkedByProfile = first.unlinkedByProfile ++ second.unlinkedByProfile := rfl

@[simp] theorem append_overrideRefused :
    (first ++ second).overrideRefused = first.overrideRefused ++ second.overrideRefused := rfl

@[simp] theorem append_proxyTemplateNames :
    (first ++ second).proxyTemplateNames = first.proxyTemplateNames ++ second.proxyTemplateNames := rfl

@[simp] theorem append_gatewayTemplateNames :
    (first ++ second).gatewayTemplateNames = first.gatewayTemplateNames ++ second.gatewayTemplateNames := rfl

@[simp] theorem append_decidedOwned : (first ++ second).decidedOwned = first.decidedOwned ++ second.decidedOwned := rfl

end Findings

variable {env : SyncPlatform} {input : ComputeSyncPlanInput} {device : TreeDevice} {owned : ServerConfig}

def isUsable (device : TreeDevice) : Bool := (selectPrimaryEndpoint device).all fun primary => isValidPort primary.port

def deviceAddresses (env : SyncPlatform) (device : TreeDevice) : DeviceAddresses :=
  ⟨(managementHost env device).1, (selectAltEndpoint device).map InventoryEndpoint.host⟩

def deviceGroup (input : ComputeSyncPlanInput) (device : TreeDevice) : Option Text :=
  (resolveDeviceGroup input.source device).1

def ownedAfter (env : SyncPlatform) (input : ComputeSyncPlanInput) (device : TreeDevice) (owned : ServerConfig) :
    ServerConfig :=
  let templates := input.deviceTemplates env device.toInventoryDevice
  match selectPrimaryEndpoint device with
  | none => placeholderAfter input device (managementHost env device).1 (deviceGroup input device)
      (templates.matrix (some owned) owned.id device.name) owned
  | some primary => updateAfter input device primary (deviceAddresses env device) (deviceGroup input device)
      templates owned

/-- The record before links that cannot be honoured are taken away. -/
def ownedLinked (env : SyncPlatform) (input : ComputeSyncPlanInput) (device : TreeDevice)
    (owned : ServerConfig) : ServerConfig :=
  let templates := input.deviceTemplates env device.toInventoryDevice
  match selectPrimaryEndpoint device with
  | none => downgradedRecord input device (managementHost env device).1 (deviceGroup input device)
      (templates.matrix (some owned) owned.id device.name) owned
  | some primary => updateLinked input device primary (deviceAddresses env device) (deviceGroup input device)
      templates owned

def ownedMatrix (env : SyncPlatform) (input : ComputeSyncPlanInput) (device : TreeDevice)
    (owned : ServerConfig) : TemplateMatrixResult :=
  (input.deviceTemplates env device.toInventoryDevice).matrix (some owned) owned.id device.name

def ownedChanged (env : SyncPlatform) (input : ComputeSyncPlanInput) (device : TreeDevice)
    (owned : ServerConfig) : Bool :=
  match selectPrimaryEndpoint device with
  | none => placeholderChanged owned (ownedAfter env input device owned)
  | some primary =>
    updateChanged ((decideEndpoint device primary.protocol owned).ownedEndpoint.bind fun found =>
      found.endpoint.username) owned (ownedAfter env input device owned)

structure OwnedFindings (env : SyncPlatform) (input : ComputeSyncPlanInput) (device : TreeDevice)
    (owned : ServerConfig) (found : Findings) : Prop where
  updates : found.updates =
    if isUsable device && ownedChanged env input device owned then
      [⟨owned, ownedAfter env input device owned⟩] else []
  unchanged : found.unchanged =
    if isUsable device then if ownedChanged env input device owned then [] else [owned] else []
  adds : found.adds = []
  decidedOwned : found.decidedOwned = if isUsable device then [device.externalId] else []
  unlinked : found.unlinkedByProfile =
    if isUsable device && decideSourceAuthRollback (ownedLinked env input device owned) input.unusableProfile ==
        .unlink then (ownedLinked env input device owned).authProfileId.toList else []
  refused : found.overrideRefused =
    if isUsable device && (selectPrimaryEndpoint device).isSome then
      (refusal (authDecision input (input.deviceTemplates env device.toInventoryDevice) owned) owned
        owned.name).overrideRefused
    else []
  proxyNames : found.proxyTemplateNames =
    if isUsable device then (Findings.templateNames (input.deviceTemplates env device.toInventoryDevice)
      (ownedMatrix env input device owned) owned.id).proxyTemplateNames else []
  gatewayNames : found.gatewayTemplateNames =
    if isUsable device then (Findings.templateNames (input.deviceTemplates env device.toInventoryDevice)
      (ownedMatrix env input device owned) owned.id).gatewayTemplateNames else []

theorem planDevice_owned (hit : input.ownedByExternalId.get? device.externalId = some owned) :
    OwnedFindings env input device owned (planDevice env input device) := by
  have has : input.ownedByExternalId.has device.externalId = true := by rw [SeqMap.has, hit]; rfl
  cases console : selectPrimaryEndpoint device with
  | none =>
    constructor <;>
      simp [planDevice, isUsable, ownedChanged, ownedAfter, ownedLinked, ownedMatrix, console, planAddressless, hit,
        planAddresslessOwned, Findings.warnAll, Findings.warnOnce, Findings.templateNames, DeviceTemplates.findings,
        rollbackTally, settleOwned, deviceGroup] <;> rfl
  | some primary =>
    by_cases valid : isValidPort primary.port
    · constructor <;>
        simp [planDevice, isUsable, ownedChanged, ownedAfter, ownedLinked, ownedMatrix, console, valid, planAddressed,
          hit, planOwned, Findings.warnAll, Findings.warnOnce, Findings.templateNames, DeviceTemplates.findings,
          rollbackTally, refusal, settleOwned, deviceGroup, deviceAddresses] <;> rfl
    · constructor <;> simp [planDevice, isUsable, console, valid, has, Findings.warn]

/-- The names under which a matrix for a server is reported. -/
def Names (templates : DeviceTemplates) (matrix : TemplateMatrixResult) (serverId : Text) (found : Findings) : Prop :=
  found.proxyTemplateNames = (Findings.templateNames templates matrix serverId).proxyTemplateNames ∧
    found.gatewayTemplateNames = (Findings.templateNames templates matrix serverId).gatewayTemplateNames

/-- What the device of no owned server comes to: a new server, an adoption, or nothing. -/
inductive UnownedOutcome (env : SyncPlatform) (input : ComputeSyncPlanInput) (device : TreeDevice) :
    Findings → Prop
  | nothing {found : Findings} (adds : found.adds = []) (updates : found.updates = [])
      (refused : found.overrideRefused = []) (proxyNames : found.proxyTemplateNames = [])
      (gatewayNames : found.gatewayTemplateNames = []) : UnownedOutcome env input device found
  | added {found : Findings} (id : Text) (primary : Option PrimaryEndpoint) (addresses : DeviceAddresses)
      (fresh : input.serversById id = none)
      (deterministic : id = env.deterministicServerId input.source.id device.externalId)
      (adds : found.adds = [newRecord input device id primary addresses (deviceGroup input device)
        (input.deviceTemplates env device.toInventoryDevice).winnerResolvedId
        ((input.deviceTemplates env device.toInventoryDevice).matrix none id device.name)])
      (updates : found.updates = []) (refused : found.overrideRefused = [])
      (names : Names (input.deviceTemplates env device.toInventoryDevice)
        ((input.deviceTemplates env device.toInventoryDevice).matrix none id device.name) id found) :
      UnownedOutcome env input device found
  | adopted {found : Findings} (primary : PrimaryEndpoint) (adoptee : ServerConfig)
      (chosen : input.adoptionChoice = some .adopt)
      (eligible : adoptee ∈ eligibleForAdoption env input device primary) (adds : found.adds = [])
      (updates : found.updates = [⟨adoptee, adoptionAfter input device primary (deviceAddresses env device)
        (deviceGroup input device) (input.deviceTemplates env device.toInventoryDevice) adoptee⟩])
      (refused : found.overrideRefused = (refusal (authDecision input
        (input.deviceTemplates env device.toInventoryDevice) (adoptionAuthView input device primary
          (deviceAddresses env device) ((input.deviceTemplates env device.toInventoryDevice).matrix
            (some (adopteeForMatrix input device adoptee)) adoptee.id device.name) adoptee)) adoptee
          device.name).overrideRefused)
      (names : Names (input.deviceTemplates env device.toInventoryDevice)
        ((input.deviceTemplates env device.toInventoryDevice).matrix
          (some (adopteeForMatrix input device adoptee)) adoptee.id device.name) adoptee.id found) :
      UnownedOutcome env input device found

theorem notAdopted_quiet (primary : PrimaryEndpoint) :
    (notAdopted env input device primary).adds = [] ∧ (notAdopted env input device primary).updates = [] ∧
      (notAdopted env input device primary).overrideRefused = [] ∧
      (notAdopted env input device primary).proxyTemplateNames = [] ∧
      (notAdopted env input device primary).gatewayTemplateNames = [] := by
  unfold notAdopted
  dsimp only
  repeat' split
  all_goals simp [Findings.warn]

theorem planSeparately_outcome (primary : PrimaryEndpoint) :
    UnownedOutcome env input device (planSeparately env input device primary (deviceAddresses env device)
      (deviceGroup input device) (input.deviceTemplates env device.toInventoryDevice)) := by
  unfold planSeparately
  dsimp only
  split
  · exact .nothing rfl rfl rfl rfl rfl
  · next fresh =>
    unfold planAdd
    dsimp only
    split <;> refine .added _ (some primary) (deviceAddresses env device) fresh rfl ?_ ?_ ?_ ⟨?_, ?_⟩ <;>
      simp [Findings.warn, Findings.warnAll, Findings.templateNames]

theorem UnownedOutcome.behind {front hit : Findings} (outcome : UnownedOutcome env input device hit)
    (adds : front.adds = []) (updates : front.updates = []) (refused : front.overrideRefused = [])
    (proxyNames : front.proxyTemplateNames = []) (gatewayNames : front.gatewayTemplateNames = []) :
    UnownedOutcome env input device (front ++ hit) := by
  cases outcome with
  | nothing adds' updates' refused' proxyNames' gatewayNames' =>
    refine .nothing ?_ ?_ ?_ ?_ ?_ <;> simp [*]
  | added id primary addresses fresh deterministic adds' updates' refused' names =>
    refine .added id primary addresses fresh deterministic ?_ ?_ ?_ ⟨?_, ?_⟩ <;> simp [*, names.1, names.2]
  | adopted primary adoptee chosen eligible adds' updates' refused' names =>
    refine .adopted primary adoptee chosen eligible ?_ ?_ ?_ ⟨?_, ?_⟩ <;> simp [*, names.1, names.2]

theorem planUnowned_outcome (primary : PrimaryEndpoint) :
    UnownedOutcome env input device (planUnowned env input device primary (deviceAddresses env device)
      (deviceGroup input device) (input.deviceTemplates env device.toInventoryDevice)) := by
  unfold planUnowned
  dsimp only
  split
  · exact .nothing rfl rfl rfl rfl rfl
  · split
    · next adoptee chosen =>
      rw [Option.filter_eq_some_iff] at chosen
      obtain ⟨only, wanted⟩ := chosen
      have eligible : adoptee ∈ eligibleForAdoption env input device primary := by
        split at only
        · exact List.mem_of_mem_head? only
        · cases only
      refine .adopted primary adoptee (by simpa using wanted) eligible ?_ ?_ ?_ ⟨?_, ?_⟩ <;>
        simp [planAdoption, Findings.warnAll, Findings.templateNames, refusal]
    · obtain ⟨adds, updates, refused, proxyNames, gatewayNames⟩ := @notAdopted_quiet env input device primary
      exact (planSeparately_outcome primary).behind (by simp [adds]) (by simp [updates]) (by simp [refused])
        (by simp [proxyNames]) (by simp [gatewayNames])

theorem planDevice_unowned (nobody : input.ownedByExternalId.get? device.externalId = none) :
    UnownedOutcome env input device (planDevice env input device) := by
  unfold planDevice
  dsimp only
  cases console : selectPrimaryEndpoint device with
  | none =>
    dsimp only
    unfold planAddressless
    dsimp only
    rw [nobody]
    refine UnownedOutcome.behind ?_ rfl rfl rfl rfl rfl
    refine UnownedOutcome.behind ?_ rfl rfl rfl rfl rfl
    unfold planAddresslessNew
    dsimp only
    split
    · exact .nothing rfl rfl rfl rfl rfl
    · next fresh =>
      refine .added _ none ⟨(managementHost env device).1,
        none⟩ (by simpa using fresh) rfl ?_ ?_ ?_ ⟨?_, ?_⟩ <;>
        split <;> simp [Findings.warn, Findings.warnAll, Findings.templateNames, deviceGroup]
  | some primary =>
    dsimp only
    split
    · split <;> exact .nothing rfl rfl rfl rfl rfl
    · refine UnownedOutcome.behind ?_ rfl rfl rfl rfl rfl
      unfold planAddressed
      dsimp only
      rw [nobody]
      refine UnownedOutcome.behind ?_ rfl rfl rfl rfl rfl
      exact planUnowned_outcome primary

structure Findings.Aside (found : Findings) : Prop where
  unchanged : found.unchanged = []
  decidedOwned : found.decidedOwned = []
  unlinked : found.unlinkedByProfile = []

theorem Findings.Aside.append {first second : Findings} (aside : first.Aside) (aside' : second.Aside) :
    (first ++ second).Aside := by
  constructor <;> simp [aside.unchanged, aside'.unchanged, aside.decidedOwned, aside'.decidedOwned, aside.unlinked,
    aside'.unlinked]

theorem planUnowned_aside (primary : PrimaryEndpoint) (addresses : DeviceAddresses) (group : Option Text)
    (templates : DeviceTemplates) : (planUnowned env input device primary addresses group templates).Aside := by
  unfold planUnowned
  dsimp only
  split
  · exact ⟨rfl, rfl, rfl⟩
  · split
    · exact ⟨rfl, rfl, rfl⟩
    · refine .append (.append ⟨rfl, rfl, rfl⟩ ?_) ?_
      · unfold notAdopted
        dsimp only
        repeat' split
        all_goals exact ⟨rfl, rfl, rfl⟩
      · unfold planSeparately planAdd
        dsimp only
        repeat' split
        all_goals exact ⟨rfl, rfl, rfl⟩

/-- A device that nobody owns settles nothing about owned servers. -/
theorem planDevice_aside (nobody : input.ownedByExternalId.get? device.externalId = none) :
    (planDevice env input device).Aside := by
  unfold planDevice planAddressless planAddressed planAddresslessNew
  simp only [nobody]
  repeat' split
  all_goals first
    | exact ⟨rfl, rfl, rfl⟩
    | exact .append ⟨rfl, rfl, rfl⟩ (.append ⟨rfl, rfl, rfl⟩ (planUnowned_aside ..))

end NexTerminal.Inventory
