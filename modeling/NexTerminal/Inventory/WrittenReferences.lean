import NexTerminal.Inventory.SyncPasses

namespace NexTerminal.Inventory

open Library Exchange

variable {env : SyncPlatform} {input : ComputeSyncPlanInput} {device : TreeDevice} {owned : ServerConfig}

/-- The stamps of a server's templates: of its origin, or of what it kept of it. -/
def ServerConfig.stamps (server : ServerConfig) : Templated :=
  match server.origin with
  | some origin => origin.templated
  | none => (server.formerlySynced.map DetachedServerOrigin.templated).getD {}

/-- A value that is written takes the place of none, or of one that a template owns. -/
def Overwrites {α : Type*} (value stamp : Option α) : Prop :=
  (value = none ∧ stamp = none) ∨ ∃ held, value = some held ∧ stamp = some held

theorem matrixValue_overwrites {field : TemplatableField} {isNew : Bool} {cur stamp : Option field.Value}
    {desired : Option (TemplateField field.Value)} {written : field.Value} (existing : isNew = false)
    (writes : matrixValue field isNew cur stamp desired = some written) : Overwrites cur stamp := by
  obtain ⟨wanted, chosen, -⟩ := Option.map_eq_some_iff.mp writes
  have allowed := (Option.filter_eq_some_iff.mp chosen).2
  rw [existing, Bool.false_or] at allowed
  unfold matrixWrites at allowed
  split at allowed
  · exact .inl ⟨rfl, by simpa using allowed⟩
  · cases allowed
  · next held stamped =>
    split at allowed
    · cases allowed
    · next same =>
      rw [Bool.not_eq_true', Bool.not_eq_false, valuesEqual_iff] at same
      exact .inr ⟨_, rfl, by rw [same]⟩

def carriedStamps (server : Option ServerConfig) : Templated :=
  ((server.bind ServerConfig.origin).map ServerOrigin.templated).getD {}

/-- What a matrix for a server comes to, as far as references go. -/
structure MatrixReferences (templates : DeviceTemplates) (server : Option ServerConfig) (serverId : Text)
    (matrix : TemplateMatrixResult) : Prop where
  proxyStamp : matrix.templated.proxy =
    if matrix.clearProxy then none else matrix.values.proxy <|> (carriedStamps server).proxy
  gatewayStamp : matrix.templated.ipmiGatewayServerId =
    (matrix.values.ipmiGatewayServerId <|> (carriedStamps server).ipmiGatewayServerId)
  named : matrix.values.proxy.isSome = true → templates.cascade.proxyTemplateName.isSome = true
  namedGateway : matrix.values.ipmiGatewayServerId.isSome = true → templates.gatewayTemplateName.isSome = true
  apart : matrix.values.proxy ≠ some (.ssh serverId)
  apartGateway : matrix.values.ipmiGatewayServerId ≠ some serverId
  kept : matrix.values.proxy.isSome = true → matrix.clearProxy = false
  overwrites : server.isSome = true → matrix.values.proxy.isSome = true →
    Overwrites (server.bind ServerConfig.proxy) (carriedStamps server).proxy
  overwritesGateway : server.isSome = true → matrix.values.ipmiGatewayServerId.isSome = true →
    Overwrites (server.bind ServerConfig.ipmiGatewayServerId) (carriedStamps server).ipmiGatewayServerId
  fresh : server = none → matrix.clearProxy = false

theorem matrixValue_wanted {field : TemplatableField} {isNew : Bool} {cur stamp : Option field.Value}
    {desired : Option (TemplateField field.Value)} {written : field.Value}
    (writes : matrixValue field isNew cur stamp desired = some written) :
    ∃ wanted, desired = some wanted ∧ wanted.value = written := by
  obtain ⟨wanted, chosen, value⟩ := Option.map_eq_some_iff.mp writes
  exact ⟨wanted, (Option.filter_eq_some_iff.mp chosen).1, value⟩

theorem resolved_of_winner {inventoryDevice : InventoryDevice} {prepared : List PreparedRule} {implicit : Option Text}
    (field : TemplatableField) (explicit : implicitWinner implicit field = none)
    (won : ((selectFieldWinners env.toTextPlatform inventoryDevice prepared implicit).winners field).isSome = true) :
    ((selectFieldWinners env.toTextPlatform inventoryDevice prepared implicit).provenance field).isSome = true := by
  unfold selectFieldWinners at won ⊢
  dsimp only at won ⊢
  rw [explicit] at won
  simpa using won

section

variable {templates : DeviceTemplates} {server : Option ServerConfig} {serverId deviceName : Text}

theorem matrix_proxy {proxy : ProxyConfig}
    (written : (templates.matrix server serverId deviceName).values.proxy = some proxy) :
    proxy ≠ .ssh serverId ∧ (templates.matrix server serverId deviceName).clearProxy = false ∧
      matrixValue .proxy server.isNone (server.bind ServerConfig.proxy) (carriedStamps server).proxy
        templates.composed.desired.proxy = some proxy := by
  unfold DeviceTemplates.matrix applyTemplateMatrix at written ⊢
  dsimp only at written ⊢
  split at written
  · cases written
  · next other =>
    obtain ⟨wanted, desired, rfl⟩ := matrixValue_wanted written
    refine ⟨fun same => other ?_, ?_, written⟩
    · rw [desired]
      simpa using same
    · rw [Bool.not_eq_true] at other
      rw [other]
      rfl

theorem matrix_gateway {gateway : Text}
    (written : (templates.matrix server serverId deviceName).values.ipmiGatewayServerId = some gateway) :
    gateway ≠ serverId ∧
      matrixValue .ipmiGatewayServerId server.isNone (server.bind ServerConfig.ipmiGatewayServerId)
        (carriedStamps server).ipmiGatewayServerId templates.composed.desired.ipmiGatewayServerId = some gateway := by
  unfold DeviceTemplates.matrix applyTemplateMatrix at written
  dsimp only at written
  split at written
  · cases written
  · next other =>
    obtain ⟨wanted, desired, rfl⟩ := matrixValue_wanted written
    refine ⟨fun same => other ?_, written⟩
    rw [desired]
    simpa using same

end

theorem matrix_references (inventoryDevice : InventoryDevice) (server : Option ServerConfig)
    (serverId deviceName : Text) :
    MatrixReferences (input.deviceTemplates env inventoryDevice) server serverId
      ((input.deviceTemplates env inventoryDevice).matrix server serverId deviceName) := by
  constructor
  · rfl
  · rfl
  · intro written
    obtain ⟨proxy, written⟩ := Option.isSome_iff_exists.mp written
    obtain ⟨wanted, desired, _⟩ := matrixValue_wanted (matrix_proxy written).2.2
    have resolved := resolved_of_winner .proxy rfl
      (Option.isSome_iff_exists.mpr ⟨_, (Option.filter_eq_some_iff.mp desired).1⟩)
    exact (Option.isSome_map ..).trans ((Option.isSome_map ..).symm.trans resolved)
  · intro written
    obtain ⟨gateway, written⟩ := Option.isSome_iff_exists.mp written
    obtain ⟨wanted, desired, _⟩ := matrixValue_wanted (matrix_gateway written).2
    have resolved := resolved_of_winner .ipmiGatewayServerId rfl
      (Option.isSome_iff_exists.mpr ⟨_, (Option.filter_eq_some_iff.mp desired).1⟩)
    exact (Option.isSome_map ..).trans resolved
  · exact fun same => (matrix_proxy same).1 rfl
  · exact fun same => (matrix_gateway same).1 rfl
  · intro written
    obtain ⟨proxy, written⟩ := Option.isSome_iff_exists.mp written
    exact (matrix_proxy written).2.1
  · intro existing written
    obtain ⟨proxy, written⟩ := Option.isSome_iff_exists.mp written
    exact matrixValue_overwrites (by simpa using existing) (matrix_proxy written).2.2
  · intro existing written
    obtain ⟨gateway, written⟩ := Option.isSome_iff_exists.mp written
    exact matrixValue_overwrites (by simpa using existing) (matrix_gateway written).2
  · rintro rfl
    exact Bool.and_eq_false_iff.mpr (.inl (Bool.and_eq_false_iff.mpr (.inr rfl)))

def serverMatrix (env : SyncPlatform) (input : ComputeSyncPlanInput) (device : TreeDevice)
    (server : ServerConfig) : TemplateMatrixResult :=
  (input.deviceTemplates env device.toInventoryDevice).matrix
    (some (if server.origin.isSome then server else adopteeForMatrix input device server)) server.id device.name

inductive Target (env : SyncPlatform) (input : ComputeSyncPlanInput) (device : TreeDevice) :
    Text → TemplateMatrixResult → Prop
  | owned (owned : ServerConfig) (found : input.ownedByExternalId.get? device.externalId = some owned)
      (usable : isUsable device = true) : Target env input device owned.id (serverMatrix env input device owned)
  | adopted (adoptee : ServerConfig) (adopts : adopteeOf env input device = some adoptee) :
      Target env input device adoptee.id (serverMatrix env input device adoptee)
  | added (id : Text) (added : id ∈ (planDevice env input device).adds.map (·.id)) :
      Target env input device id
        ((input.deviceTemplates env device.toInventoryDevice).matrix none id device.name)

/-- What a device reports is what its target's matrix wrote. -/
def Reports (env : SyncPlatform) (input : ComputeSyncPlanInput) (device : TreeDevice) : Prop :=
  ((planDevice env input device).proxyTemplateNames = [] ∧
    (planDevice env input device).gatewayTemplateNames = [] ∧ ∀ id matrix, ¬Target env input device id matrix) ∨
    ∃ id matrix, Target env input device id matrix ∧
      Names (input.deviceTemplates env device.toInventoryDevice) matrix id (planDevice env input device) ∧
      ∀ other another, Target env input device other another → other = id ∧ another = matrix

theorem serverMatrix_owned {externalId : Text} (hit : input.ownedByExternalId.get? externalId = some owned) :
    serverMatrix env input device owned = ownedMatrix env input device owned := by
  obtain ⟨origin, held, _⟩ := owned_origin hit
  rw [serverMatrix, held]
  rfl

variable {adoptee : ServerConfig}

theorem serverMatrix_kept (unlinked : adoptee.origin = none) : serverMatrix env input device adoptee =
      (input.deviceTemplates env device.toInventoryDevice).matrix
        (some (adopteeForMatrix input device adoptee)) adoptee.id device.name := by
  rw [serverMatrix, unlinked]
  rfl

theorem device_reports (env : SyncPlatform) (input : ComputeSyncPlanInput) (device : TreeDevice) :
    Reports env input device := by
  cases hit : input.ownedByExternalId.get? device.externalId with
  | some owned =>
    have finds := @planDevice_owned env _ _ _ hit
    by_cases usable : isUsable device = true
    · refine .inr ⟨owned.id, serverMatrix env input device owned, .owned owned hit usable, ?_, ?_⟩
      · rw [serverMatrix_owned hit]
        exact ⟨finds.proxyNames.trans (if_pos usable), finds.gatewayNames.trans (if_pos usable)⟩
      · rintro _ _ (⟨other, found', _⟩ | ⟨adoptee, adopts⟩ | ⟨id, added⟩)
        · obtain rfl := Option.mem_unique hit found'
          exact ⟨rfl, rfl⟩
        · obtain ⟨_, _, _, nobody⟩ := adopteeOf_spec adopts
          rw [hit] at nobody
          cases nobody
        · rw [finds.adds] at added
          cases added
    · refine .inl ⟨finds.proxyNames.trans (if_neg usable), finds.gatewayNames.trans (if_neg usable), ?_⟩
      rintro _ _ (⟨-, _, usable'⟩ | ⟨adoptee, adopts⟩ | ⟨id, added⟩)
      · exact usable usable'
      · obtain ⟨_, _, _, nobody⟩ := adopteeOf_spec adopts
        rw [hit] at nobody
        cases nobody
      · rw [finds.adds] at added
        cases added
  | none =>
    have befores := @planDevice_befores env input device hit
    cases @planDevice_unowned env input device hit with
    | nothing adds updates refused proxyNames gatewayNames =>
      rw [updates] at befores
      refine .inl ⟨proxyNames, gatewayNames, ?_⟩
      rintro _ _ (⟨other, found', _⟩ | ⟨adoptee, adopts⟩ | ⟨id, added⟩)
      · rw [hit] at found'
        cases found'
      · rw [adopts] at befores
        cases befores
      · rw [adds] at added
        cases added
    | added id primary addresses fresh deterministic adds updates refused names =>
      rw [updates] at befores
      refine .inr ⟨id, _, .added id (by rw [adds]; exact List.mem_singleton_self _), names, ?_⟩
      rintro _ _ (⟨other, found', _⟩ | ⟨adoptee, adopts⟩ | ⟨other, added⟩)
      · rw [hit] at found'
        cases found'
      · rw [adopts] at befores
        cases befores
      · rw [adds] at added
        obtain rfl := List.mem_singleton.mp added
        exact ⟨rfl, rfl⟩
    | adopted primary adoptee chosen eligible adds updates refused names =>
      rw [updates] at befores
      have adopts : adopteeOf env input device = some adoptee :=
        Option.mem_toList.mp (befores ▸ List.mem_singleton_self _)
      refine .inr ⟨adoptee.id, _, .adopted adoptee adopts, ?_, ?_⟩
      · rw [serverMatrix_kept (eligible_spec eligible).2.1]
        exact names
      · rintro _ _ (⟨other, found', _⟩ | ⟨other, adopts'⟩ | ⟨other, added⟩)
        · rw [hit] at found'
          cases found'
        · obtain rfl := Option.mem_unique adopts adopts'
          exact ⟨rfl, rfl⟩
        · rw [adds] at added
          cases added

theorem lastName_isSome {names : List (Text × Text)} {serverId : Text} :
    (lastName names serverId).isSome = true ↔ ∃ name, (serverId, name) ∈ names := by
  rw [lastName, Option.isSome_map, List.getLast?_isSome]
  constructor
  · intro some
    obtain ⟨entry, mem⟩ := List.exists_mem_of_ne_nil _ some
    obtain ⟨known, same⟩ := List.mem_filter.mp mem
    rw [beq_iff_eq] at same
    exact ⟨entry.2, same ▸ known⟩
  · rintro ⟨name, mem⟩
    exact List.ne_nil_of_mem (List.mem_filter.mpr ⟨mem, beq_self_eq_true serverId⟩)

/-- The pass knows the template that wrote a server's reference. -/
structure PassNames (env : SyncPlatform) (input : ComputeSyncPlanInput) (pass : ReferencePass)
    (wrote : TemplateMatrixResult → Bool) : Prop where
  of_name : ∀ id, (pass.templateName id).isSome = true →
    ∃ device ∈ decidedDevices input, ∃ matrix, Target env input device id matrix ∧ wrote matrix = true
  name_of : ∀ device ∈ decidedDevices input, ∀ id matrix, Target env input device id matrix →
    wrote matrix = true → (pass.templateName id).isSome = true

theorem target_matrix {id : Text} {matrix : TemplateMatrixResult} (target : Target env input device id matrix) :
    ∃ server, MatrixReferences (input.deviceTemplates env device.toInventoryDevice) server id matrix := by
  cases target with
  | owned owned hit usable | adopted adoptee adopts | added id added => exact ⟨_, matrix_references ..⟩

variable {pass : ReferencePass}

theorem names_of_reports (wrote : TemplateMatrixResult → Bool) (name : DeviceTemplates → Option Text)
    (pick : Findings → List (Text × Text))
    (known : pass.templateName = lastName ((decidedDevices input).flatMap fun device =>
      pick (planDevice env input device)))
    (quiet : ∀ device, (planDevice env input device).proxyTemplateNames = [] →
      (planDevice env input device).gatewayTemplateNames = [] → pick (planDevice env input device) = [])
    (report : ∀ (device : TreeDevice) matrix id, Names (input.deviceTemplates env device.toInventoryDevice) matrix id
        (planDevice env input device) →
      pick (planDevice env input device) = if wrote matrix = true then
        ((name (input.deviceTemplates env device.toInventoryDevice)).map (id, ·)).toList else [])
    (named : ∀ (device : TreeDevice) server id matrix,
      MatrixReferences (input.deviceTemplates env device.toInventoryDevice) server id matrix →
      wrote matrix = true → (name (input.deviceTemplates env device.toInventoryDevice)).isSome = true) :
    PassNames env input pass wrote := by
  constructor
  · intro id isNamed
    rw [known] at isNamed
    obtain ⟨name, mem⟩ := lastName_isSome.mp isNamed
    obtain ⟨device, decided, mem⟩ := List.mem_flatMap.mp mem
    rcases device_reports env input device with ⟨noProxy, noGateway, -⟩ | ⟨other, matrix, target, reports, -⟩
    · rw [quiet device noProxy noGateway] at mem
      cases mem
    · rw [report device matrix other reports] at mem
      split at mem
      · next wrote =>
        obtain ⟨_, -, same⟩ := Option.map_eq_some_iff.mp (Option.mem_toList.mp mem)
        obtain rfl : other = id := congrArg Prod.fst same
        exact ⟨device, decided, matrix, target, wrote⟩
      · cases mem
  · intro device decided id matrix target wrote
    obtain ⟨server, references⟩ := target_matrix target
    obtain ⟨called, isNamed⟩ := Option.isSome_iff_exists.mp (named device server id matrix references wrote)
    rw [known]
    refine lastName_isSome.mpr ⟨called, List.mem_flatMap.mpr ⟨device, decided, ?_⟩⟩
    rcases device_reports env input device with ⟨-, -, nobody⟩ | ⟨other, matrix', -, reports, only⟩
    · exact absurd target (nobody _ _)
    · obtain ⟨rfl, rfl⟩ := only _ _ target
      rw [report device matrix id reports, if_pos wrote, isNamed]
      exact List.mem_singleton_self _

theorem proxyPass_names :
    PassNames env input (proxyPass env input) fun matrix => matrix.values.proxy.isSome :=
  names_of_reports _ (fun templates => templates.cascade.proxyTemplateName) Findings.proxyTemplateNames
    (congrArg lastName (planDevices_flatMap (·.proxyTemplateNames) (fun _ _ => rfl) (fun _ _ _ => rfl) [] _))
    (fun _ quiet _ => quiet) (fun _ _ _ reports => reports.1) fun _ _ _ _ references => references.named

theorem gatewayPass_names :
    PassNames env input (gatewayPass env input) fun matrix => matrix.values.ipmiGatewayServerId.isSome :=
  names_of_reports _ DeviceTemplates.gatewayTemplateName Findings.gatewayTemplateNames
    (congrArg lastName (planDevices_flatMap (·.gatewayTemplateNames) (fun _ _ => rfl) (fun _ _ _ => rfl) [] _))
    (fun _ _ quiet => quiet) (fun _ _ _ reports => reports.2) fun _ _ _ _ references => references.namedGateway

structure References where
  id : Text
  proxy : Option ProxyConfig
  gateway : Option Text
  stamps : Templated
  linked : Bool

def ServerConfig.references (server : ServerConfig) : References where
  id := server.id
  proxy := server.proxy
  gateway := server.ipmiGatewayServerId
  stamps := server.stamps
  linked := server.origin.isSome

theorem references_withSourceLinkCleared (server : ServerConfig) :
    (withSourceLinkCleared server).references = server.references := by
  cases held : server.origin <;> simp [withSourceLinkCleared, ServerConfig.references, ServerConfig.stamps, held]

theorem references_withAuthDecision (server : ServerConfig) (decision : TemplateAuthDecision) :
    (server.withAuthDecision decision).references = server.references := by
  cases decision with
  | write profileId =>
    cases held : server.origin <;>
      simp [ServerConfig.withAuthDecision, ServerConfig.references, ServerConfig.stamps, held]
  | leave | skipUsability profileId => rfl

theorem references_withRollback (server : ServerConfig) (unusable : Text → Bool) :
    (server.withRollback unusable).references = server.references := by
  unfold ServerConfig.withRollback
  split
  · exact references_withSourceLinkCleared server
  · rfl

theorem references_withoutOwnAltHost (server : ServerConfig) :
    server.withoutOwnAltHost.references = server.references := by
  unfold ServerConfig.withoutOwnAltHost
  split
  · cases held : server.origin <;> simp [ServerConfig.references, ServerConfig.stamps, held]
  · rfl

/-- The references of a server once a matrix is written on it. -/
def References.written (before : References) (matrix : TemplateMatrixResult) : References where
  id := before.id
  proxy := if matrix.clearProxy then none else matrix.values.proxy <|> before.proxy
  gateway := matrix.values.ipmiGatewayServerId <|> before.gateway
  stamps := matrix.templated
  linked := true

theorem references_ownedAfter (env : SyncPlatform) (input : ComputeSyncPlanInput) (device : TreeDevice)
    (owned : ServerConfig) : (ownedAfter env input device owned).references =
      owned.references.written (ownedMatrix env input device owned) := by
  unfold ownedAfter
  split
  · rw [placeholderAfter, references_withRollback]
    rfl
  · rw [updateAfter, references_withoutOwnAltHost, references_withRollback, updateLinked, references_withAuthDecision]
    rfl

theorem references_adoptionAfter (primary : PrimaryEndpoint) (addresses : DeviceAddresses) (group : Option Text)
    {adoptee : ServerConfig} (unlinked : adoptee.origin = none) :
    (adoptionAfter input device primary addresses group (input.deviceTemplates env device.toInventoryDevice)
      adoptee).references = adoptee.references.written (serverMatrix env input device adoptee) := by
  rw [adoptionAfter, references_withoutOwnAltHost, references_withAuthDecision, serverMatrix_kept unlinked]
  rfl

variable {server : ServerConfig}

theorem stamps_of_linked (linked : server.origin.isSome = true) : carriedStamps (some server) = server.stamps := by
  obtain ⟨origin, held⟩ := Option.isSome_iff_exists.mp linked
  simp [carriedStamps, ServerConfig.stamps, held]

theorem eq_empty_of_no_stamp {stamps : Templated} (unstamped : templatedHasAnyStamp stamps = false) :
    stamps = {} := by
  cases stamps
  simp_all [templatedHasAnyStamp]

theorem stamps_of_kept (unlinked : adoptee.origin = none) :
    carriedStamps (some (adopteeForMatrix input device adoptee)) = adoptee.stamps := by
  cases held : adoptee.formerlySynced with
  | none => simp [carriedStamps, adopteeForMatrix, ServerConfig.stamps, held, unlinked]
  | some kept =>
    by_cases stamped : templatedHasAnyStamp kept.templated = true
    · simp [carriedStamps, adopteeForMatrix, ServerConfig.stamps, held, unlinked, stamped]
    · have empty := eq_empty_of_no_stamp (Bool.eq_false_iff.mpr stamped)
      have unstamped : templatedHasAnyStamp {} = false := rfl
      simp [carriedStamps, adopteeForMatrix, ServerConfig.stamps, held, unlinked, empty, unstamped]

theorem serverMatrix_references (env : SyncPlatform) (input : ComputeSyncPlanInput) (device : TreeDevice)
    (server : ServerConfig) :
    ∃ view : ServerConfig, view.proxy = server.proxy ∧ view.ipmiGatewayServerId = server.ipmiGatewayServerId ∧
      carriedStamps (some view) = server.stamps ∧
      MatrixReferences (input.deviceTemplates env device.toInventoryDevice) (some view) server.id
        (serverMatrix env input device server) := by
  refine ⟨_, ?_, ?_, ?_, matrix_references ..⟩
  all_goals
    split
  · rfl
  · unfold adopteeForMatrix
    repeat' split
    all_goals rfl
  · rfl
  · unfold adopteeForMatrix
    repeat' split
    all_goals rfl
  · next linked => exact stamps_of_linked linked
  · next unlinked => exact stamps_of_kept (by simpa using unlinked)

theorem adds_fresh {id : Text} (added : id ∈ (planDevice env input device).adds.map (·.id)) :
    ∀ server ∈ input.currentServers, server.id ≠ id := by
  cases hit : input.ownedByExternalId.get? device.externalId with
  | some owned =>
    rw [(@planDevice_owned env _ _ _ hit).adds] at added
    cases added
  | none =>
    cases @planDevice_unowned env input device hit with
    | nothing adds | adopted _ _ _ _ adds => rw [adds] at added; cases added
    | added other _ _ fresh _ adds =>
      rw [adds] at added
      obtain rfl := List.mem_singleton.mp added
      rw [ComputeSyncPlanInput.serversById, List.getLast?_eq_none_iff, List.filter_eq_nil_iff] at fresh
      exact fun server mem same => fresh server mem (by simpa using same)

theorem Target.of_server (nodup : DistinctIds input) {matrix : TemplateMatrixResult}
    (mem : server ∈ input.currentServers) (target : Target env input device server.id matrix) :
    updateKey server = some device.externalId ∧ matrix = serverMatrix env input device server ∧
      (input.ownedByExternalId.get? device.externalId = some server ∧ isUsable device = true ∨
        adopteeOf env input device = some server) := by
  generalize named : server.id = id at target
  cases target with
  | owned owned hit usable =>
    obtain rfl := nodup.eq mem (owned_spec hit).1 named
    exact ⟨owned_key hit, rfl, .inl ⟨hit, usable⟩⟩
  | adopted adoptee adopts =>
    obtain ⟨primary, _, eligible, _⟩ := adopteeOf_spec adopts
    obtain rfl := nodup.eq mem (eligible_spec eligible).1 named
    exact ⟨eligible_key eligible, rfl, .inr adopts⟩
  | added id added => exact absurd named (adds_fresh added server mem)

variable {wrote : TemplateMatrixResult → Bool}

theorem PassNames.of_target (names : PassNames env input pass wrote)
    (nodup : DistinctIds input) (mem : server ∈ input.currentServers) (decided : device ∈ decidedDevices input)
    (target : Target env input device server.id (serverMatrix env input device server)) :
    (pass.templateName server.id).isSome = wrote (serverMatrix env input device server) := by
  rw [Bool.eq_iff_iff]
  refine ⟨fun named => ?_, names.name_of device decided _ _ target⟩
  obtain ⟨other, decided', matrix, target', wrote'⟩ := names.of_name _ named
  obtain ⟨key, rfl, _⟩ := target'.of_server nodup mem
  obtain ⟨key', _⟩ := target.of_server nodup mem
  obtain rfl := eq_of_externalId decided decided' (Option.mem_unique key' key)
  exact wrote'

theorem PassNames.of_no_target (names : PassNames env input pass wrote)
    (nobody : ∀ device ∈ decidedDevices input, ∀ matrix, ¬Target env input device server.id matrix) :
    (pass.templateName server.id).isSome = false := by
  by_contra named
  rw [Bool.not_eq_false] at named
  obtain ⟨device, decided, matrix, target, _⟩ := names.of_name _ named
  exact nobody device decided matrix target

/-- How an update's references come from the server's: what a template writes, under a name, takes
the place of nothing or of what a template owns. -/
structure Carries (env : SyncPlatform) (input : ComputeSyncPlanInput) (u : ServerUpdate)
    (values : Templated) (clear : Bool) : Prop where
  id : u.after.id = u.before.id
  linked : u.after.origin.isSome = true
  proxy : u.after.proxy = if clear then none else values.proxy <|> u.before.proxy
  proxyStamp : u.after.stamps.proxy = if clear then none else values.proxy <|> u.before.stamps.proxy
  gateway : u.after.ipmiGatewayServerId = (values.ipmiGatewayServerId <|> u.before.ipmiGatewayServerId)
  gatewayStamp : u.after.stamps.ipmiGatewayServerId =
    (values.ipmiGatewayServerId <|> u.before.stamps.ipmiGatewayServerId)
  named : ((proxyPass env input).templateName u.before.id).isSome = values.proxy.isSome
  namedGateway : ((gatewayPass env input).templateName u.before.id).isSome = values.ipmiGatewayServerId.isSome
  apart : values.proxy ≠ some (.ssh u.before.id)
  apartGateway : values.ipmiGatewayServerId ≠ some u.before.id
  kept : values.proxy.isSome = true → clear = false
  overwrites : values.proxy.isSome = true → Overwrites u.before.proxy u.before.stamps.proxy
  overwritesGateway : values.ipmiGatewayServerId.isSome = true →
    Overwrites u.before.ipmiGatewayServerId u.before.stamps.ipmiGatewayServerId

theorem carries_matrix (nodup : DistinctIds input) {pre after : ServerConfig}
    (mem : pre ∈ input.currentServers) (decided : device ∈ decidedDevices input)
    (target : Target env input device pre.id (serverMatrix env input device pre))
    (written : after.references = pre.references.written (serverMatrix env input device pre)) :
    Carries env input ⟨pre, after⟩ (serverMatrix env input device pre).values
      (serverMatrix env input device pre).clearProxy := by
  obtain ⟨view, proxy, gateway, stamps, matrix⟩ := serverMatrix_references env input device pre
  have overwrites := matrix.overwrites rfl
  have overwritesGateway := matrix.overwritesGateway rfl
  have proxyStamp := matrix.proxyStamp
  have gatewayStamp := matrix.gatewayStamp
  rw [Option.bind_some, stamps, proxy] at overwrites
  rw [Option.bind_some, stamps, gateway] at overwritesGateway
  rw [stamps] at proxyStamp gatewayStamp
  have stamped := congrArg References.stamps written
  exact
    { id := congrArg References.id written
      linked := congrArg References.linked written
      proxy := congrArg References.proxy written
      proxyStamp := (congrArg Templated.proxy stamped).trans proxyStamp
      gateway := congrArg References.gateway written
      gatewayStamp := (congrArg Templated.ipmiGatewayServerId stamped).trans gatewayStamp
      named := proxyPass_names.of_target nodup mem decided target
      namedGateway := gatewayPass_names.of_target nodup mem decided target
      apart := matrix.apart
      apartGateway := matrix.apartGateway
      kept := matrix.kept
      overwrites
      overwritesGateway }

theorem carries_nothing {pre after : ServerConfig} (linked : pre.origin.isSome = true)
    (same : after.references = pre.references)
    (nobody : ∀ device ∈ decidedDevices input, ∀ matrix, ¬Target env input device pre.id matrix) :
    Carries env input ⟨pre, after⟩ {} false where
  id := congrArg References.id same
  linked := (congrArg References.linked same).trans linked
  proxy := congrArg References.proxy same
  proxyStamp := congrArg (fun references => references.stamps.proxy) same
  gateway := congrArg References.gateway same
  gatewayStamp := congrArg (fun references => references.stamps.ipmiGatewayServerId) same
  named := proxyPass_names.of_no_target nobody
  namedGateway := gatewayPass_names.of_no_target nobody
  apart := nofun
  apartGateway := nofun
  kept := nofun
  overwrites := nofun
  overwritesGateway := nofun

section

variable (nodup : DistinctIds input)
include nodup

theorem carries_owned (decided : device ∈ decidedDevices input)
    (hit : input.ownedByExternalId.get? device.externalId = some owned) (usable : isUsable device = true) :
    Carries env input ⟨owned, ownedAfter env input device owned⟩
      (serverMatrix env input device owned).values (serverMatrix env input device owned).clearProxy := by
  refine carries_matrix nodup (owned_spec hit).1 decided (.owned owned hit usable) ?_
  rw [serverMatrix_owned hit]
  exact references_ownedAfter env input device owned

theorem carries_adopted (decided : device ∈ decidedDevices input)
    (adopts : adopteeOf env input device = some adoptee) (primary : PrimaryEndpoint)
    (addresses : DeviceAddresses) (group : Option Text) :
    Carries env input ⟨adoptee, adoptionAfter input device primary addresses group
        (input.deviceTemplates env device.toInventoryDevice) adoptee⟩
      (serverMatrix env input device adoptee).values (serverMatrix env input device adoptee).clearProxy := by
  obtain ⟨_, _, eligible, _⟩ := adopteeOf_spec adopts
  obtain ⟨mem, unlinked, _⟩ := eligible_spec eligible
  exact carries_matrix nodup mem decided (.adopted adoptee adopts)
    (references_adoptionAfter primary addresses group unlinked)

theorem carries_unlinked {externalId : Text} (hit : input.ownedByExternalId.get? externalId = some owned)
    (undecided : externalId ∉ (deviceFindings env input).decidedOwned) :
    Carries env input ⟨owned, withSourceLinkCleared owned⟩ {} false := by
  obtain ⟨mem, _, _⟩ := owned_spec hit
  obtain ⟨origin, held, _⟩ := owned_origin hit
  refine carries_nothing (by rw [held]; rfl)
    (references_withSourceLinkCleared owned) fun device decided matrix target => ?_
  obtain ⟨key, _, ⟨-, usable⟩ | adopts⟩ := target.of_server nodup mem
  · rw [owned_key hit, Option.some.injEq] at key
    subst key
    exact undecided (mem_decidedOwned.mpr ⟨device, decided, usable, rfl, by rw [hit]; rfl⟩)
  · obtain ⟨_, _, eligible, _⟩ := adopteeOf_spec adopts
    rw [(eligible_spec eligible).2.1] at held
    cases held

/-- Every update of the loop carries what its device's matrix wrote. -/
theorem LoopUpdate.carries {u : ServerUpdate} (update : LoopUpdate env input u) :
    ∃ values clear, Carries env input u values clear := by
  cases update with
  | owned device owned decided hit usable changed => exact ⟨_, _, carries_owned nodup decided hit usable⟩
  | adopted device primary adoptee decided adopts eligible =>
    exact ⟨_, _, carries_adopted nodup decided adopts primary _ _⟩
  | unlinked externalId owned hit undecided present rollback =>
    exact ⟨_, _, carries_unlinked nodup hit undecided⟩

end

end NexTerminal.Inventory
