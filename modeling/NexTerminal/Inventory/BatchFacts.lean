import NexTerminal.Inventory.ApplyPlan

namespace NexTerminal.Inventory

open Library

theorem foldl_same {α β γ : Type} (view : β → γ) {step : β → α → β}
    (same : ∀ state item, view (step state item) = view state) (items : List α) (state : β) :
    view (items.foldl step state) = view state := by
  induction items generalizing state with
  | nil => rfl
  | cons item rest ih => rw [List.foldl_cons, ih, same]

namespace Batch

/-- The records of the batch agree with the servers it left. The identifiers still
to be written are listed apart. -/
structure Tracked (initial : NexusCore) (todo : List Text) (batch : Batch) : Prop where
  prior : ∀ id prior, batch.priorServers.get? id = some prior → prior = initial.servers.get? id
  unwritten : ∀ id, batch.batchWrittenServers.get? id = none → batch.core.servers.get? id = initial.servers.get? id
  written : ∀ id left, batch.batchWrittenServers.get? id = some left → batch.core.servers.get? id = left
  captured : ∀ id, (batch.batchWrittenServers.get? id).isSome = true → (batch.priorServers.get? id).isSome = true
  settled : ∀ id, (batch.priorServers.get? id).isSome = true →
    (batch.batchWrittenServers.get? id).isSome = true ∨ id ∈ todo

section Tracking

variable {initial : NexusCore} {todo : List Text} {batch : Batch}

variable {id : Text}

theorem Tracked.unwritten_of_uncaptured (tracked : Tracked initial todo batch)
    (uncaptured : batch.priorServers.get? id = none) : batch.batchWrittenServers.get? id = none := by
  cases hit : batch.batchWrittenServers.get? id with
  | none => rfl
  | some left =>
    have captured := tracked.captured id (by rw [hit]; rfl)
    rw [uncaptured] at captured
    cases captured

theorem Tracked.untouched (tracked : Tracked initial todo batch) (uncaptured : batch.priorServers.get? id = none) :
    batch.core.servers.get? id = initial.servers.get? id :=
  tracked.unwritten id (tracked.unwritten_of_uncaptured uncaptured)

theorem captureServerPrior_get? (batch : Batch) (id other : Text) :
    (batch.captureServerPrior id).priorServers.get? other =
      if other = id then (batch.priorServers.get? id).or (some (batch.core.servers.get? id))
      else batch.priorServers.get? other := by
  unfold captureServerPrior SeqMap.has
  cases known : batch.priorServers.get? id with
  | none =>
    rw [if_neg (by simp), SeqMap.get?_set]
    by_cases same : other = id
    · simp [same]
    · simp [same, Ne.symm same]
  | some prior =>
    by_cases same : other = id
    · simp [same, known]
    · simp [same]

@[simp] theorem captureServerPrior_core (batch : Batch) (id : Text) :
    (batch.captureServerPrior id).core = batch.core := by
  unfold captureServerPrior
  split <;> rfl

@[simp] theorem captureServerPrior_written (batch : Batch) (id : Text) :
    (batch.captureServerPrior id).batchWrittenServers = batch.batchWrittenServers := by
  unfold captureServerPrior
  split <;> rfl

theorem Tracked.capture (tracked : Tracked initial todo batch) (id : Text) :
    Tracked initial (id :: todo) (batch.captureServerPrior id) := by
  refine ⟨?_, ?_, ?_, ?_, ?_⟩
  · intro other prior hit
    rw [captureServerPrior_get?] at hit
    split at hit
    · rename_i same
      subst same
      cases known : batch.priorServers.get? other with
      | none =>
        rw [known, Option.none_or, Option.some.injEq] at hit
        rw [← hit, tracked.untouched known]
      | some old =>
        rw [known, Option.some_or, Option.some.injEq] at hit
        rw [← hit, tracked.prior other old known]
    · exact tracked.prior other prior hit
  · intro other nothing
    rw [captureServerPrior_written] at nothing
    rw [captureServerPrior_core, tracked.unwritten other nothing]
  · intro other left hit
    rw [captureServerPrior_written] at hit
    rw [captureServerPrior_core, tracked.written other left hit]
  · intro other hit
    rw [captureServerPrior_written] at hit
    have captured := tracked.captured other hit
    rw [captureServerPrior_get?]
    split
    · simp
    · exact captured
  · intro other hit
    rw [captureServerPrior_get?] at hit
    rw [captureServerPrior_written]
    split at hit
    · rename_i same
      exact .inr (same ▸ List.mem_cons_self)
    · exact (tracked.settled other hit).imp_right (List.mem_cons_of_mem id)

theorem Tracked.mono (tracked : Tracked initial todo batch) {todo' : List Text}
    (more : ∀ id ∈ todo, id ∈ todo' ∨ (batch.batchWrittenServers.get? id).isSome = true) :
    Tracked initial todo' batch := by
  refine { tracked with settled := fun id hit => ?_ }
  rcases tracked.settled id hit with written | listed
  · exact .inl written
  · exact (more id listed).symm

theorem Tracked.captureAll (tracked : Tracked initial todo batch) (ids : List Text) :
    Tracked initial (ids ++ todo) (ids.foldl captureServerPrior batch) := by
  induction ids generalizing batch todo with
  | nil => exact tracked
  | cons id rest ih =>
    refine (ih (tracked.capture id)).mono ?_
    intro other mem
    simp only [List.mem_append, List.mem_cons] at mem ⊢
    tauto

theorem captureAll_isSome (ids : List Text) (batch : Batch)
    (known : id ∈ ids ∨ (batch.priorServers.get? id).isSome = true) :
    ((ids.foldl captureServerPrior batch).priorServers.get? id).isSome = true := by
  induction ids generalizing batch with
  | nil => simpa using known
  | cons other rest ih =>
    refine ih _ ?_
    rw [captureServerPrior_get?]
    split
    · exact .inr (by simp)
    · rename_i differ
      rcases known with mem | old
      · exact .inl ((List.mem_cons.mp mem).resolve_left differ)
      · exact .inr old

theorem Tracked.write {next : Batch} (tracked : Tracked initial todo batch) (target : Text → Prop)
    [DecidablePred target] (left : Text → Option ServerConfig)
    (captured : ∀ id, target id → (batch.priorServers.get? id).isSome = true)
    (priors : next.priorServers = batch.priorServers) (written : ∀ id, next.batchWrittenServers.get? id =
      if target id then some (left id) else batch.batchWrittenServers.get? id)
    (servers : ∀ id, next.core.servers.get? id =
      if target id then left id else batch.core.servers.get? id) : Tracked initial todo next := by
  refine ⟨?_, ?_, ?_, ?_, ?_⟩
  · intro id prior hit
    exact tracked.prior id prior (priors ▸ hit)
  · intro id nothing
    rw [written] at nothing
    split at nothing
    · cases nothing
    · rename_i ne
      rw [servers, if_neg ne, tracked.unwritten id nothing]
  · intro id kept hit
    rw [written] at hit
    rw [servers]
    split at hit
    · rename_i named
      cases hit
      rw [if_pos named]
    · rename_i ne
      rw [if_neg ne, tracked.written id kept hit]
  · intro id hit
    rw [written] at hit
    rw [priors]
    split at hit
    · rename_i named
      exact captured id named
    · exact tracked.captured id hit
  · intro id hit
    rw [priors] at hit
    rw [written]
    split
    · exact .inl rfl
    · exact tracked.settled id hit

theorem deleteServer_written (batch : Batch) (id other : Text) :
    (batch.deleteServer id).batchWrittenServers.get? other =
      if id = other then some none else batch.batchWrittenServers.get? other := SeqMap.get?_set _ _ _ other

theorem writeServer_written (batch : Batch) (id : Text) (server : ServerConfig) (other : Text) :
    (batch.writeServer id server).batchWrittenServers.get? other =
      if id = other then some (some server) else batch.batchWrittenServers.get? other :=
  SeqMap.get?_set _ _ _ other

theorem Tracked.deleteServer (tracked : Tracked initial todo batch)
    (captured : (batch.priorServers.get? id).isSome = true) : Tracked initial todo (batch.deleteServer id) :=
  tracked.write (id = ·) (fun _ => none) (by rintro _ rfl; exact captured) rfl
    (deleteServer_written batch id) (SeqMap.get?_erase _ _)

theorem Tracked.writeServer (tracked : Tracked initial todo batch) {server : ServerConfig}
    (captured : (batch.priorServers.get? id).isSome = true) : Tracked initial todo (batch.writeServer id server) :=
  tracked.write (id = ·) (fun _ => some server) (by rintro _ rfl; exact captured) rfl
    (writeServer_written batch id server) (SeqMap.get?_set _ _ _)

theorem Tracked.deleteAll {ids : List Text} (tracked : Tracked initial todo batch)
    (captured : ∀ id ∈ ids, (batch.priorServers.get? id).isSome = true) :
    Tracked initial todo (ids.foldl Batch.deleteServer batch) := by
  induction ids generalizing batch with
  | nil => exact tracked
  | cons id rest ih =>
    exact ih (tracked.deleteServer (captured id List.mem_cons_self))
      fun other mem => captured other (List.mem_cons_of_mem id mem)

theorem Tracked.upsertAll {servers : List ServerConfig} (tracked : Tracked initial todo batch)
    (captured : ∀ server ∈ servers, (batch.priorServers.get? server.id).isSome = true) :
    Tracked initial todo (servers.foldl Batch.upsertServer batch) := by
  induction servers generalizing batch with
  | nil => exact tracked
  | cons server rest ih =>
    exact ih (tracked.writeServer (captured server List.mem_cons_self))
      fun other mem => captured other (List.mem_cons_of_mem server mem)

theorem deleteAll_written (ids : List Text) (batch : Batch) (id : Text) :
    (ids.foldl Batch.deleteServer batch).batchWrittenServers.get? id =
      if id ∈ ids then some none else batch.batchWrittenServers.get? id := by
  induction ids generalizing batch with
  | nil => rw [List.foldl_nil, if_neg List.not_mem_nil]
  | cons other rest ih =>
    rw [List.foldl_cons, ih, deleteServer_written]
    by_cases same : other = id
    · simp [same]
    · simp [same, Ne.symm same]

def lastUpsert (servers : List ServerConfig) (id : Text) : Option ServerConfig :=
  servers.reverse.find? fun server => server.id == id

theorem lastUpsert_cons (server : ServerConfig) (rest : List ServerConfig) (id : Text) :
    lastUpsert (server :: rest) id = (lastUpsert rest id).or (if server.id = id then some server else none) := by
  unfold lastUpsert
  simp

theorem lastUpsert_eq_none {servers : List ServerConfig} :
    lastUpsert servers id = none ↔ id ∉ servers.map ServerConfig.id := by
  simp [lastUpsert]

theorem upsertAll_written (servers : List ServerConfig) (batch : Batch) (id : Text) :
    (servers.foldl Batch.upsertServer batch).batchWrittenServers.get? id =
      ((lastUpsert servers id).map some).or (batch.batchWrittenServers.get? id) := by
  induction servers generalizing batch with
  | nil => rfl
  | cons server rest ih =>
    rw [List.foldl_cons, ih, Batch.upsertServer, writeServer_written, lastUpsert_cons]
    cases lastUpsert rest id with
    | some last => rfl
    | none =>
      split <;> rfl

theorem Tracked.congr {next : Batch} (tracked : Tracked initial todo batch)
    (priors : next.priorServers = batch.priorServers) (written : next.batchWrittenServers = batch.batchWrittenServers)
    (servers : next.core.servers = batch.core.servers) : Tracked initial todo next :=
  tracked.write (fun _ => False) (fun _ => none) nofun priors (fun _ => by rw [written]; rfl)
    (fun _ => by rw [servers]; rfl)

theorem captureAll_core (ids : List Text) (batch : Batch) : (ids.foldl captureServerPrior batch).core = batch.core :=
  foldl_same Batch.core captureServerPrior_core ids batch

theorem captureAll_written (ids : List Text) (batch : Batch) :
    (ids.foldl captureServerPrior batch).batchWrittenServers = batch.batchWrittenServers :=
  foldl_same Batch.batchWrittenServers captureServerPrior_written ids batch

theorem snapshotServer_core (batch : Batch) (id : Text) : (batch.snapshotServer id).core = batch.core := by
  unfold snapshotServer
  split <;> rfl

theorem snapshotServer_priorServers (batch : Batch) (id : Text) :
    (batch.snapshotServer id).priorServers = batch.priorServers := by
  unfold snapshotServer
  split <;> rfl

theorem snapshotAll_core (ids : List Text) (batch : Batch) : (ids.foldl snapshotServer batch).core = batch.core :=
  foldl_same Batch.core snapshotServer_core ids batch

theorem snapshotAll_priorServers (ids : List Text) (batch : Batch) :
    (ids.foldl snapshotServer batch).priorServers = batch.priorServers :=
  foldl_same Batch.priorServers snapshotServer_priorServers ids batch

theorem snapshotAll_written {ids : List Text} {batch : Batch}
    (present : ∀ id ∈ ids, (batch.core.servers.get? id).isSome = true) (id : Text) :
    (ids.foldl snapshotServer batch).batchWrittenServers.get? id =
      if id ∈ ids then some (batch.core.servers.get? id) else batch.batchWrittenServers.get? id := by
  induction ids generalizing batch with
  | nil => rw [List.foldl_nil, if_neg List.not_mem_nil]
  | cons other rest ih =>
    obtain ⟨left, hit⟩ := Option.isSome_iff_exists.mp (present other List.mem_cons_self)
    have step : (batch.snapshotServer other).batchWrittenServers.get? id =
        if other = id then some (some left) else batch.batchWrittenServers.get? id := by
      unfold snapshotServer
      rw [hit]
      exact SeqMap.get?_set _ _ _ id
    rw [List.foldl_cons, ih, step, snapshotServer_core]
    · by_cases same : other = id
      · subst same
        simp [hit]
      · simp [same, Ne.symm same]
    · intro next mem
      rw [snapshotServer_core]
      exact present next (List.mem_cons_of_mem other mem)

theorem mem_gatewayDependents {core : NexusCore} {deleted : List Text} : id ∈ core.gatewayDependents deleted ↔
      ∃ server, core.servers.get? id = some server ∧ linksTo deleted server = true := by
  simp only [NexusCore.gatewayDependents, List.mem_map, List.mem_filter, Prod.exists, SeqMap.mem_entries]
  constructor
  · rintro ⟨key, server, ⟨hit, linked⟩, rfl⟩
    exact ⟨server, hit, linked⟩
  · rintro ⟨server, hit, linked⟩
    exact ⟨id, server, ⟨hit, linked⟩, rfl⟩

theorem sweepGateways_servers (batch : Batch) (deleted : List Text) (id : Text) :
    (batch.sweepGateways deleted).core.servers.get? id =
      (batch.core.servers.get? id).map fun server =>
        if linksTo deleted server then clearGatewayLink server else server := by
  unfold sweepGateways
  rw [snapshotAll_core, captureAll_core]
  exact SeqMap.get?_mapValues _ _ id

theorem sweepGateways_written (batch : Batch) (deleted : List Text) (id : Text) :
    (batch.sweepGateways deleted).batchWrittenServers.get? id =
      if id ∈ batch.core.gatewayDependents deleted then
        some ((batch.sweepGateways deleted).core.servers.get? id)
      else batch.batchWrittenServers.get? id := by
  unfold sweepGateways
  rw [snapshotAll_written, snapshotAll_core, captureAll_written]
  intro other mem
  obtain ⟨server, hit, -⟩ := mem_gatewayDependents.mp mem
  have left : (batch.core.clearGatewayReferencesTo deleted).servers.get? other =
      some (if linksTo deleted server then clearGatewayLink server else server) :=
    (SeqMap.get?_mapValues _ _ other).trans (congrArg _ hit)
  rw [captureAll_core, left]
  rfl

theorem Tracked.sweepGateways (tracked : Tracked initial [] batch) (deleted : List Text) :
    Tracked initial [] (batch.sweepGateways deleted) := by
  have captured := tracked.captureAll (batch.core.gatewayDependents deleted)
  have swept : Tracked initial (batch.core.gatewayDependents deleted ++ [])
      (batch.sweepGateways deleted) := by
    refine captured.write (· ∈ batch.core.gatewayDependents deleted)
      (batch.sweepGateways deleted).core.servers.get? ?_ ?_ ?_ ?_
    · exact fun id mem => captureAll_isSome _ batch (.inl mem)
    · exact snapshotAll_priorServers _ _
    · intro id
      rw [captureAll_written]
      exact sweepGateways_written batch deleted id
    · intro id
      split
      · rfl
      · rename_i other
        rw [captureAll_core, sweepGateways_servers]
        cases hit : batch.core.servers.get? id with
        | none => rfl
        | some server =>
          have unlinked : ¬ linksTo deleted server = true :=
            fun linked => other (mem_gatewayDependents.mpr ⟨server, hit, linked⟩)
          rw [Option.map_some, if_neg unlinked]
  refine swept.mono fun id mem => .inr ?_
  rw [List.append_nil] at mem
  rw [sweepGateways_written, if_pos mem]
  rfl

theorem Tracked.clearDanglingGateway (tracked : Tracked initial [] batch) (id : Text) :
    Tracked initial [] (batch.clearDanglingGateway id) := by
  unfold Batch.clearDanglingGateway
  split
  · exact tracked
  · split
    · exact tracked
    · split
      · exact tracked
      · have captured : (((batch.captureServerPrior id).priorServers).get? id).isSome = true := by
          rw [captureServerPrior_get?, if_pos rfl]
          simp
        refine ((tracked.capture id).writeServer captured).mono fun other mem => .inr ?_
        rw [List.mem_singleton.mp mem]
        exact congrArg Option.isSome ((SeqMap.get?_set _ _ _ id).trans (if_pos rfl))

theorem Tracked.clearAllDangling (tracked : Tracked initial [] batch) (ids : List Text) :
    Tracked initial [] (ids.foldl Batch.clearDanglingGateway batch) := by
  induction ids generalizing batch with
  | nil => exact tracked
  | cons id rest ih => exact ih (tracked.clearDanglingGateway id)

theorem addFolder_tracked (ancestor : Text) (tracked : Tracked initial todo batch) :
    Tracked initial todo (batch.addFolder ancestor) := by
  unfold addFolder
  dsimp only
  split
  · exact tracked.congr rfl rfl rfl
  · exact tracked.congr rfl rfl rfl

end Tracking

/-- A batch with the servers it is about to change captured. -/
def foldersAdded (core : NexusCore) (apply : InventorySyncApplication) (accepted : AcceptedApplication) :
    Batch := (namedFolders apply.folders).foldl addFolder (begin core accepted)

def serversDeleted (core : NexusCore) (apply : InventorySyncApplication) (accepted : AcceptedApplication) :
    Batch := accepted.removeServerIds.foldl deleteServer (foldersAdded core apply accepted)

def serversUpserted (core : NexusCore) (apply : InventorySyncApplication) (accepted : AcceptedApplication) :
    Batch := accepted.upsertServers.foldl upsertServer (serversDeleted core apply accepted)

def gatewaysSwept (core : NexusCore) (apply : InventorySyncApplication) (accepted : AcceptedApplication) :
    Batch := (serversUpserted core apply accepted).sweepGateways accepted.removeServerIds

def gatewaysCleared (core : NexusCore) (apply : InventorySyncApplication) (accepted : AcceptedApplication) : Batch :=
  (accepted.upsertServers.map ServerConfig.id).foldl clearDanglingGateway (gatewaysSwept core apply accepted)

theorem mutate_eq (core : NexusCore) (apply : InventorySyncApplication) (accepted : AcceptedApplication) :
    mutate core apply accepted = (gatewaysCleared core apply accepted).settleFolders apply := rfl

def besidesServers (batch : Batch) : Batch :=
  { batch with
    core := { batch.core with servers := .empty }
    priorServers := .empty
    batchWrittenServers := .empty }

theorem besidesServers_captureServerPrior (batch : Batch) (id : Text) :
    (batch.captureServerPrior id).besidesServers = batch.besidesServers := by
  unfold captureServerPrior
  split <;> rfl

theorem besidesServers_snapshotServer (batch : Batch) (id : Text) :
    (batch.snapshotServer id).besidesServers = batch.besidesServers := by
  unfold snapshotServer
  split <;> rfl

theorem besidesServers_upsertServer (batch : Batch) (server : ServerConfig) :
    (batch.upsertServer server).besidesServers = batch.besidesServers := rfl

theorem besidesServers_sweepGateways (batch : Batch) (deleted : List Text) :
    (batch.sweepGateways deleted).besidesServers = batch.besidesServers := by
  unfold sweepGateways
  rw [foldl_same besidesServers besidesServers_snapshotServer,
    ← foldl_same besidesServers besidesServers_captureServerPrior
      (batch.core.gatewayDependents deleted) batch]
  rfl

theorem besidesServers_clearDanglingGateway (batch : Batch) (id : Text) :
    (batch.clearDanglingGateway id).besidesServers = batch.besidesServers := by
  unfold clearDanglingGateway
  split
  · rfl
  · split
    · rfl
    · split
      · rfl
      · exact besidesServers_captureServerPrior batch id

theorem gatewaysCleared_besidesServers (core : NexusCore) (apply : InventorySyncApplication)
    (accepted : AcceptedApplication) :
    (gatewaysCleared core apply accepted).besidesServers = (serversDeleted core apply accepted).besidesServers := by
  unfold gatewaysCleared gatewaysSwept serversUpserted
  rw [foldl_same besidesServers besidesServers_clearDanglingGateway, besidesServers_sweepGateways,
    foldl_same besidesServers besidesServers_upsertServer]

def besidesDeletes (batch : Batch) : Batch :=
  { batch with
    core := { batch.core with
      servers := .empty
      activeSessions := .empty
      activitySessionIds := .empty
      focusedSessionId := none
      serverStatus := .empty
      serverStatusSource := .empty }
    droppedServerStatus := .empty
    batchWrittenServers := .empty }

theorem besidesDeletes_deleteServer (batch : Batch) (id : Text) :
    (batch.deleteServer id).besidesDeletes = batch.besidesDeletes := rfl

def besidesFolders (batch : Batch) : Batch :=
  { batch with
    core := { batch.core with explicitGroups := .empty }
    applicationFolderSet := .empty
    addedExplicitGroups := .empty }

theorem besidesFolders_addFolder (batch : Batch) (ancestor : Text) :
    (batch.addFolder ancestor).besidesFolders = batch.besidesFolders := by
  unfold addFolder
  dsimp only
  split <;> rfl

theorem begin_core (core : NexusCore) (accepted : AcceptedApplication) : (begin core accepted).core = core := by
  unfold begin
  rw [captureAll_core, captureAll_core]

def sessionsToClose (core : NexusCore) (accepted : AcceptedApplication) : List (Text × ActiveSession) :=
  accepted.removeServerIds.flatMap fun id =>
    core.activeSessions.entries.filter fun entry => entry.2.serverId == id

theorem begin_besidesServers (core : NexusCore) (accepted : AcceptedApplication) :
    (begin core accepted).besidesServers =
      { core := { core with servers := .empty }
        priorFocusedSessionId := core.focusedSessionId
        priorActiveSessions := sessionsToClose core accepted
        priorActivitySessionIds := ((sessionsToClose core accepted).map Prod.fst).filter
          fun sid => sid ∈ core.activitySessionIds } := by
  have captured := foldl_same besidesServers besidesServers_captureServerPrior
    (accepted.removeServerIds ++ accepted.upsertServers.map ServerConfig.id) { core := core }
  rw [List.foldl_append] at captured
  exact congrArg (fun batch : Batch => { batch with
    priorFocusedSessionId := core.focusedSessionId
    priorActiveSessions := sessionsToClose core accepted
    priorActivitySessionIds := ((sessionsToClose core accepted).map Prod.fst).filter
      fun sid => sid ∈ core.activitySessionIds }) captured

theorem deleteServer_sessions (batch : Batch) (id sid : Text) :
    (batch.deleteServer id).core.activeSessions.get? sid =
      (batch.core.activeSessions.get? sid).filter fun session => session.serverId != id :=
  SeqMap.get?_filterValues _ _ sid

theorem deleteServer_activity (batch : Batch) (id sid : Text) :
    sid ∈ (batch.deleteServer id).core.activitySessionIds ↔
      sid ∈ batch.core.activitySessionIds ∧
        ∀ session, batch.core.activeSessions.get? sid = some session → session.serverId ≠ id := by
  refine SeqSet.mem_filter.trans (and_congr Iff.rfl ?_)
  simp only [Bool.not_eq_true', List.contains_eq_mem, List.mem_map, List.mem_filter, Prod.exists,
    SeqMap.mem_entries, decide_eq_false_iff_not, beq_iff_eq]
  constructor
  · rintro none session hit same
    exact none ⟨sid, session, ⟨hit, same⟩, rfl⟩
  · rintro others ⟨key, session, ⟨hit, same⟩, rfl⟩
    exact others session hit same

theorem deleteAll_sessions (ids : List Text) (batch : Batch) (sid : Text) :
    (ids.foldl deleteServer batch).core.activeSessions.get? sid =
      (batch.core.activeSessions.get? sid).filter fun session => !ids.contains session.serverId := by
  induction ids generalizing batch with
  | nil =>
    rw [List.foldl_nil]
    cases batch.core.activeSessions.get? sid with
    | none => rfl
    | some session => simp [Option.filter]
  | cons id rest ih =>
    rw [List.foldl_cons, ih, deleteServer_sessions, Option.filter_filter]
    congr 1
    funext session
    by_cases same : session.serverId = id
    · simp [same]
    · simp [same]

theorem deleteAll_activity (ids : List Text) (batch : Batch) (sid : Text) :
    sid ∈ (ids.foldl deleteServer batch).core.activitySessionIds ↔
      sid ∈ batch.core.activitySessionIds ∧
        ∀ session, batch.core.activeSessions.get? sid = some session → session.serverId ∉ ids := by
  induction ids generalizing batch with
  | nil => simp
  | cons id rest ih =>
    rw [List.foldl_cons, ih, deleteServer_activity, deleteServer_sessions]
    cases hit : batch.core.activeSessions.get? sid with
    | none => simp
    | some session =>
      by_cases same : session.serverId = id
      · simp [same]
      · simp [same]

theorem deleteAll_status (ids : List Text) (batch : Batch) (id : Text) :
    (ids.foldl deleteServer batch).core.serverStatus.get? id =
        (if id ∈ ids then none else batch.core.serverStatus.get? id) ∧
      (ids.foldl deleteServer batch).core.serverStatusSource.get? id =
        (if id ∈ ids then none else batch.core.serverStatusSource.get? id) := by
  induction ids generalizing batch with
  | nil => simp
  | cons other rest ih =>
    have status : (batch.deleteServer other).core.serverStatus.get? id =
        if other = id then none else batch.core.serverStatus.get? id := SeqMap.get?_erase _ _ id
    have source : (batch.deleteServer other).core.serverStatusSource.get? id =
        if other = id then none else batch.core.serverStatusSource.get? id :=
      SeqMap.get?_erase _ _ id
    rw [List.foldl_cons, (ih _).1, (ih _).2, status, source]
    by_cases same : other = id
    · simp [same]
    · simp [same, Ne.symm same]

theorem deleteAll_dropped (ids : List Text) (batch : Batch) (id : Text) :
    (ids.foldl deleteServer batch).droppedServerStatus.get? id =
      if id ∈ ids then
        ((batch.core.serverStatus.get? id).map fun state =>
          (state, batch.core.serverStatusSource.get? id)).or (batch.droppedServerStatus.get? id)
      else batch.droppedServerStatus.get? id := by
  induction ids generalizing batch with
  | nil => simp
  | cons other rest ih =>
    have status : (batch.deleteServer other).core.serverStatus.get? id =
        if other = id then none else batch.core.serverStatus.get? id := SeqMap.get?_erase _ _ id
    have source : (batch.deleteServer other).core.serverStatusSource.get? id =
        if other = id then none else batch.core.serverStatusSource.get? id :=
      SeqMap.get?_erase _ _ id
    have dropped : (batch.deleteServer other).droppedServerStatus.get? id =
        if other = id then
          ((batch.core.serverStatus.get? id).map fun state =>
            (state, batch.core.serverStatusSource.get? id)).or (batch.droppedServerStatus.get? id)
        else batch.droppedServerStatus.get? id := by
      unfold deleteServer
      split
      · rename_i state hit
        refine (SeqMap.get?_set _ _ _ id).trans ?_
        split
        · rename_i same
          rw [← same, hit]
          rfl
        · rfl
      · rename_i hit
        split
        · rename_i same
          rw [← same, hit, Option.map_none, Option.none_or]
        · rfl
    rw [List.foldl_cons, ih, status, source, dropped]
    by_cases same : other = id
    · simp [same]
    · simp [same, Ne.symm same]

section Phases

variable (core : NexusCore) (apply : InventorySyncApplication) (accepted : AcceptedApplication)

theorem foldersAdded_besidesFolders :
    (foldersAdded core apply accepted).besidesFolders = (begin core accepted).besidesFolders :=
  foldl_same besidesFolders besidesFolders_addFolder _ _

theorem serversDeleted_besidesDeletes :
    (serversDeleted core apply accepted).besidesDeletes = (foldersAdded core apply accepted).besidesDeletes :=
  foldl_same besidesDeletes besidesDeletes_deleteServer _ _

def scaffold (batch : Batch) : Batch :=
  { batch.besidesServers.besidesDeletes.besidesFolders with
    priorFocusedSessionId := none, priorActiveSessions := [], priorActivitySessionIds := [] }

theorem gatewaysCleared_scaffold : (gatewaysCleared core apply accepted).scaffold = scaffold { core := core } :=
  calc
    _ = (serversDeleted core apply accepted).scaffold :=
      (congrArg scaffold (gatewaysCleared_besidesServers core apply accepted) :)
    _ = (foldersAdded core apply accepted).scaffold :=
      (congrArg scaffold (serversDeleted_besidesDeletes core apply accepted) :)
    _ = (begin core accepted).scaffold := (congrArg scaffold (foldersAdded_besidesFolders core apply accepted) :)
    _ = scaffold { core := core } := (congrArg scaffold (begin_besidesServers core accepted) :)

theorem foldersAdded_tracked :
    Tracked core (accepted.upsertServers.map ServerConfig.id ++ (accepted.removeServerIds ++ []))
      (foldersAdded core apply accepted) := by
  have fresh : Tracked core [] { core := core } :=
    ⟨fun _ _ hit => (by cases hit), fun _ _ => rfl, fun _ _ hit => (by cases hit),
      fun _ hit => (by cases hit), fun _ hit => (by cases hit)⟩
  have captured := (fresh.captureAll accepted.removeServerIds).captureAll
    (accepted.upsertServers.map ServerConfig.id)
  have started : Tracked core (accepted.upsertServers.map ServerConfig.id ++ (accepted.removeServerIds ++ []))
      (begin core accepted) := captured.congr rfl rfl rfl
  have preserved : ∀ (folders : List Text) (batch : Batch) (todo : List Text),
      Tracked core todo batch → Tracked core todo (folders.foldl addFolder batch) := by
    intro folders
    induction folders with
    | nil => exact fun _ _ tracked => tracked
    | cons ancestor rest ih => exact fun batch todo tracked => ih _ _ (addFolder_tracked ancestor tracked)
  exact preserved _ _ _ started

theorem foldersAdded_captured {id : Text}
    (named : id ∈ accepted.removeServerIds ∨ id ∈ accepted.upsertServers.map ServerConfig.id) :
    ((foldersAdded core apply accepted).priorServers.get? id).isSome = true := by
  have priors : (foldersAdded core apply accepted).priorServers = (begin core accepted).priorServers :=
    (congrArg Batch.priorServers (foldersAdded_besidesFolders core apply accepted) :)
  rw [priors]
  refine captureAll_isSome (accepted.upsertServers.map ServerConfig.id)
    (accepted.removeServerIds.foldl captureServerPrior { core := core }) ?_
  rcases named with removed | upserted
  · exact .inr (captureAll_isSome accepted.removeServerIds { core := core } (.inl removed))
  · exact .inl upserted

theorem serversUpserted_written (id : Text) :
    (serversUpserted core apply accepted).batchWrittenServers.get? id =
      ((lastUpsert accepted.upsertServers id).map some).or
        (if id ∈ accepted.removeServerIds then some none else none) := by
  have nothing : (foldersAdded core apply accepted).batchWrittenServers.get? id = none := by
    have written := congrArg Batch.batchWrittenServers (foldersAdded_besidesFolders core apply accepted)
    have empty : (begin core accepted).batchWrittenServers = .empty := by
      unfold begin
      rw [captureAll_written, captureAll_written]
    rw [show (foldersAdded core apply accepted).batchWrittenServers = .empty from written.trans empty]
    rfl
  unfold serversUpserted serversDeleted
  rw [upsertAll_written, deleteAll_written, nothing]

theorem serversDeleted_tracked :
    Tracked core (accepted.upsertServers.map ServerConfig.id ++ (accepted.removeServerIds ++ []))
      (serversDeleted core apply accepted) :=
  (foldersAdded_tracked core apply accepted).deleteAll fun _ mem =>
    foldersAdded_captured core apply accepted (.inl mem)

theorem serversUpserted_tracked : Tracked core [] (serversUpserted core apply accepted) := by
  have priors : (serversDeleted core apply accepted).priorServers =
      (foldersAdded core apply accepted).priorServers :=
    (congrArg Batch.priorServers (serversDeleted_besidesDeletes core apply accepted) :)
  have upserted : Tracked core (accepted.upsertServers.map ServerConfig.id ++ (accepted.removeServerIds ++ []))
      (serversUpserted core apply accepted) := by
    refine (serversDeleted_tracked core apply accepted).upsertAll fun server mem => ?_
    rw [priors]
    exact foldersAdded_captured core apply accepted (.inr (List.mem_map_of_mem mem))
  refine upserted.mono fun id mem => .inr ?_
  rw [List.append_nil, List.mem_append] at mem
  rw [serversUpserted_written]
  rcases mem with upserted | removed
  · cases last : lastUpsert accepted.upsertServers id with
    | none => exact absurd upserted (lastUpsert_eq_none.mp last)
    | some server => rfl
  · rw [if_pos removed]
    cases lastUpsert accepted.upsertServers id <;> rfl

theorem gatewaysCleared_tracked : Tracked core [] (gatewaysCleared core apply accepted) :=
  ((serversUpserted_tracked core apply accepted).sweepGateways _).clearAllDangling _

/-- Whether a batch deleted the server and wrote nothing in its place. -/
def Deleted (batch : Batch) (id : Text) : Prop := batch.batchWrittenServers.get? id = some none

theorem sweepGateways_deleted {batch : Batch} {deleted : List Text} {id : Text}
    (tracked : Tracked core [] batch) : (batch.sweepGateways deleted).Deleted id ↔ batch.Deleted id := by
  unfold Deleted
  rw [sweepGateways_written]
  by_cases dependent : id ∈ batch.core.gatewayDependents deleted
  · rw [if_pos dependent, sweepGateways_servers]
    obtain ⟨server, hit, -⟩ := mem_gatewayDependents.mp dependent
    rw [hit]
    constructor
    · intro impossible
      cases impossible
    · intro written
      have absent := tracked.written id none written
      rw [hit] at absent
      cases absent
  · rw [if_neg dependent]

theorem clearDanglingGateway_deleted {batch : Batch} {other id : Text} (tracked : Tracked core [] batch) :
    (batch.clearDanglingGateway other).Deleted id ↔ batch.Deleted id := by
  unfold Deleted clearDanglingGateway
  split
  · rfl
  · rename_i live hit
    split
    · rfl
    · split
      · rfl
      · have left : ((batch.captureServerPrior other).writeServer other
            (clearGatewayLink live)).batchWrittenServers.get? id =
              if other = id then some (some (clearGatewayLink live))
              else (batch.captureServerPrior other).batchWrittenServers.get? id :=
          SeqMap.get?_set _ _ _ id
        rw [left, captureServerPrior_written]
        split
        · rename_i same
          subst same
          constructor
          · intro impossible
            cases impossible
          · intro written
            have absent := tracked.written other none written
            rw [hit] at absent
            cases absent
        · rfl

theorem gatewaysCleared_deleted {id : Text} :
    (gatewaysCleared core apply accepted).Deleted id ↔
      id ∈ accepted.removeServerIds ∧ id ∉ accepted.upsertServers.map ServerConfig.id := by
  have cleared : ∀ (ids : List Text) (batch : Batch), Tracked core [] batch →
      ((ids.foldl clearDanglingGateway batch).Deleted id ↔ batch.Deleted id) := by
    intro ids
    induction ids with
    | nil => exact fun _ _ => Iff.rfl
    | cons other rest ih =>
      exact fun batch tracked =>
        (ih _ (tracked.clearDanglingGateway other)).trans (clearDanglingGateway_deleted core tracked)
  have tracked := serversUpserted_tracked core apply accepted
  unfold gatewaysCleared gatewaysSwept
  rw [cleared _ _ (tracked.sweepGateways _), sweepGateways_deleted core tracked]
  unfold Deleted
  rw [serversUpserted_written, ← lastUpsert_eq_none]
  cases lastUpsert accepted.upsertServers id with
  | some server => simp
  | none =>
    by_cases removed : id ∈ accepted.removeServerIds
    · simp
    · simp

/-- What the application makes of an identifier, gateway links apart. -/
def planned (core : NexusCore) (accepted : AcceptedApplication) (id : Text) : Option ServerConfig :=
  (lastUpsert accepted.upsertServers id).or
    (if id ∈ accepted.removeServerIds then none else core.servers.get? id)

theorem serversUpserted_servers (id : Text) :
    (serversUpserted core apply accepted).core.servers.get? id = planned core accepted id := by
  have tracked := serversUpserted_tracked core apply accepted
  have written := serversUpserted_written core apply accepted id
  unfold planned
  cases last : lastUpsert accepted.upsertServers id with
  | some server =>
    rw [last] at written
    exact tracked.written id (some server) written
  | none =>
    rw [last, Option.map_none, Option.none_or] at written
    split at written
    · rename_i removed
      rw [if_pos removed]
      exact tracked.written id none written
    · rename_i kept
      rw [if_neg kept]
      exact tracked.unwritten id written

theorem clearDanglingGateway_group (batch : Batch) (other id : Text) :
    ((batch.clearDanglingGateway other).core.servers.get? id).map ServerConfig.group =
      (batch.core.servers.get? id).map ServerConfig.group := by
  unfold clearDanglingGateway
  split
  · rfl
  · rename_i live hit
    split
    · rfl
    · split
      · rfl
      · have left : ((batch.captureServerPrior other).writeServer other
            (clearGatewayLink live)).core.servers.get? id =
              if other = id then some (clearGatewayLink live)
              else (batch.captureServerPrior other).core.servers.get? id :=
          SeqMap.get?_set _ _ _ id
        rw [left, captureServerPrior_core]
        split
        · rename_i same
          subst same
          rw [hit]
          rfl
        · rfl

theorem gatewaysCleared_group (id : Text) :
    ((gatewaysCleared core apply accepted).core.servers.get? id).map ServerConfig.group =
      (planned core accepted id).map ServerConfig.group := by
  unfold gatewaysCleared gatewaysSwept
  rw [foldl_same (fun batch : Batch => (batch.core.servers.get? id).map ServerConfig.group)
    (fun batch other => clearDanglingGateway_group batch other id), sweepGateways_servers,
    serversUpserted_servers, Option.map_map]
  congr 1
  funext server
  simp only [Function.comp_apply]
  split <;> rfl

theorem addFolders_mem (folders : List Text) (batch : Batch) (path : Text) :
    (path ∈ (folders.foldl addFolder batch).core.explicitGroups ↔
        path ∈ batch.core.explicitGroups ∨ path ∈ folders) ∧
      (path ∈ (folders.foldl addFolder batch).applicationFolderSet ↔
        path ∈ batch.applicationFolderSet ∨ path ∈ folders) ∧
      (path ∈ (folders.foldl addFolder batch).addedExplicitGroups ↔
        path ∈ batch.addedExplicitGroups ∨ path ∈ folders ∧ path ∉ batch.core.explicitGroups) := by
  induction folders generalizing batch with
  | nil => simp
  | cons ancestor rest ih =>
    obtain ⟨groups, named, added⟩ := ih (batch.addFolder ancestor)
    rw [List.foldl_cons, groups, named, added]
    unfold addFolder
    dsimp only
    split
    · rename_i known
      simp only [SeqSet.mem_add, List.mem_cons]
      refine ⟨?_, or_assoc, ?_⟩
      · constructor
        · exact Or.imp_right .inr
        · rintro (old | rfl | later)
          · exact .inl old
          · exact .inl known
          · exact .inr later
      · constructor
        · exact Or.imp_right fun hit => ⟨.inr hit.1, hit.2⟩
        · rintro (old | ⟨rfl | later, fresh⟩)
          · exact .inl old
          · exact absurd known fresh
          · exact .inr ⟨later, fresh⟩
    · rename_i unknown
      simp only [SeqSet.mem_add, List.mem_cons]
      refine ⟨or_assoc, or_assoc, ?_⟩
      constructor
      · rintro ((old | rfl) | ⟨later, fresh⟩)
        · exact .inl old
        · exact .inr ⟨.inl rfl, unknown⟩
        · exact .inr ⟨.inr later, fun known => fresh (.inl known)⟩
      · rintro (old | ⟨rfl | later, fresh⟩)
        · exact .inl (.inl old)
        · exact .inl (.inr rfl)
        · by_cases same : path = ancestor
          · exact .inl (.inr same)
          · exact .inr ⟨later, fun known => known.elim fresh same⟩

theorem gatewaysCleared_folders (path : Text) :
    (path ∈ (gatewaysCleared core apply accepted).core.explicitGroups ↔
        path ∈ core.explicitGroups ∨ path ∈ namedFolders apply.folders) ∧
      (path ∈ (gatewaysCleared core apply accepted).applicationFolderSet ↔ path ∈ namedFolders apply.folders) ∧
      (path ∈ (gatewaysCleared core apply accepted).addedExplicitGroups ↔
        path ∈ namedFolders apply.folders ∧ path ∉ core.explicitGroups) := by
  have later := gatewaysCleared_besidesServers core apply accepted
  have deletes := serversDeleted_besidesDeletes core apply accepted
  have start := begin_besidesServers core accepted
  have groups : (gatewaysCleared core apply accepted).core.explicitGroups =
      (foldersAdded core apply accepted).core.explicitGroups :=
    (congrArg (fun batch => batch.core.explicitGroups) later :).trans
      (congrArg (fun batch => batch.core.explicitGroups) deletes :)
  have named : (gatewaysCleared core apply accepted).applicationFolderSet =
      (foldersAdded core apply accepted).applicationFolderSet :=
    (congrArg (fun batch => batch.applicationFolderSet) later :).trans
      (congrArg (fun batch => batch.applicationFolderSet) deletes :)
  have added : (gatewaysCleared core apply accepted).addedExplicitGroups =
      (foldersAdded core apply accepted).addedExplicitGroups :=
    (congrArg (fun batch => batch.addedExplicitGroups) later :).trans
      (congrArg (fun batch => batch.addedExplicitGroups) deletes :)
  have noneNamed : (begin core accepted).applicationFolderSet = .empty :=
    (congrArg (fun batch => batch.applicationFolderSet) start :)
  have noneAdded : (begin core accepted).addedExplicitGroups = .empty :=
    (congrArg (fun batch => batch.addedExplicitGroups) start :)
  have members := addFolders_mem (namedFolders apply.folders) (begin core accepted) path
  rw [noneNamed, noneAdded, begin_core] at members
  rw [groups, named, added]
  simpa [foldersAdded] using members

/-- The sessions, the activity marks and the status, without what belongs to the removed servers. -/
structure LiveAfter (core : NexusCore) (accepted : AcceptedApplication) (batch : Batch) (sessionId id : Text) :
    Prop where
  sessions : batch.core.activeSessions.get? sessionId =
    (core.activeSessions.get? sessionId).filter fun session => !accepted.removeServerIds.contains session.serverId
  activity : sessionId ∈ batch.core.activitySessionIds ↔ sessionId ∈ core.activitySessionIds ∧
    ∀ session, core.activeSessions.get? sessionId = some session → session.serverId ∉ accepted.removeServerIds
  status : batch.core.serverStatus.get? id =
    if id ∈ accepted.removeServerIds then none else core.serverStatus.get? id
  source : batch.core.serverStatusSource.get? id =
    if id ∈ accepted.removeServerIds then none else core.serverStatusSource.get? id
  dropped : batch.droppedServerStatus.get? id =
    if id ∈ accepted.removeServerIds then
      (core.serverStatus.get? id).map fun state => (state, core.serverStatusSource.get? id)
    else none

def live (batch : Batch) :=
  (batch.core.activeSessions, batch.core.activitySessionIds, batch.core.serverStatus, batch.core.serverStatusSource,
    batch.droppedServerStatus)

variable {core accepted} in
theorem LiveAfter.congr {batch next : Batch} {sid id : Text} (same : next.live = batch.live)
    (after : LiveAfter core accepted batch sid id) : LiveAfter core accepted next sid id := by
  simp only [live, Prod.mk.injEq] at same
  obtain ⟨sessions, activity, status, source, dropped⟩ := same
  exact ⟨sessions ▸ after.sessions, activity ▸ after.activity, status ▸ after.status, source ▸ after.source,
    dropped ▸ after.dropped⟩

/-- What lives after the batch, server by server. -/
theorem gatewaysCleared_live (sid id : Text) :
    LiveAfter core accepted (gatewaysCleared core apply accepted) sid id := by
  have start : (foldersAdded core apply accepted).live = live { core := core } :=
    calc
      _ = (begin core accepted).live := (congrArg live (foldersAdded_besidesFolders core apply accepted) :)
      _ = live { core := core } := (congrArg live (begin_besidesServers core accepted) :)
  simp only [live, Prod.mk.injEq] at start
  obtain ⟨sessions, activity, status, source, dropped⟩ := start
  refine LiveAfter.congr (congrArg live (gatewaysCleared_besidesServers core apply accepted) :) ?_
  constructor
  · rw [← sessions]
    exact deleteAll_sessions _ _ sid
  · rw [← sessions, ← activity]
    exact deleteAll_activity _ _ sid
  · rw [← status]
    exact (deleteAll_status _ _ id).1
  · rw [← source]
    exact (deleteAll_status _ _ id).2
  · refine (deleteAll_dropped accepted.removeServerIds (foldersAdded core apply accepted) id).trans ?_
    rw [dropped, status, source]
    simp [SeqMap.get?_empty]

end Phases

end Batch

end NexTerminal.Inventory
