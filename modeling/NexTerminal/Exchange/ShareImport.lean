import NexTerminal.Exchange.ImportShareData

namespace NexTerminal.Exchange

open Host Library

variable {uuid : Nat → JsString} {data : ShareData} {store : RecordStore} {id : JsString} {r : JsRecord}

section Origin

variable {idMap : SeqMap JsString JsString} {profiles servers : List JsString} {origin templated : JsValue}

def stampKeys : List String :=
  ["proxy", "multiplexing", "legacyAlgorithms", "logSession", "ipmiAuthProfileId", "ipmiGatewayServerId"]

variable {value : JsValue}

theorem isUndefined_iff : value.isUndefined = true ↔ value = .undefined := by
  cases value <;> simp [JsValue.isUndefined]

variable {key : String}

theorem get_collapsed (stamp : key ∈ stampKeys) (templated : JsValue) :
    (collapsed templated).get key = templated.get key := by
  unfold collapsed
  split
  · rfl
  · rename_i none
    simp only [templatedHasAnyStamp, List.any_eq_true, not_exists, not_and, Bool.not_eq_true,
      Bool.not_eq_false'] at none
    exact (isUndefined_iff.mp (none key stamp)).symm

theorem mem_of_linkToImportedProfile {new : JsString} (link : linkToImportedProfile idMap profiles value = some new) :
    mapped idMap value = some new ∧ new ∈ profiles := by
  unfold linkToImportedProfile at link
  split at link
  · rw [Option.filter_eq_some_iff] at link
    exact ⟨link.1, by simpa using link.2⟩
  · cases link

theorem undefined_of_no_stamp (none : templatedHasAnyStamp templated = false) (stamp : key ∈ stampKeys) :
    templated.get key = .undefined := by
  have bare : collapsed templated = .undefined := by simp [collapsed, none]
  rw [← get_collapsed stamp, bare]
  rfl

theorem get_finalizeOrigin (ne : key ≠ "templated") :
    (finalizeOrigin servers origin).get key = origin.get key := by
  simp only [finalizeOrigin]
  split
  · rfl
  · rw [JsValue.get_set, if_neg (Ne.symm ne)]

theorem gateway_finalizeOrigin : ((finalizeOrigin servers origin).get "templated").get "ipmiGatewayServerId" =
    .ofOption (linkToImportedServer servers ((origin.get "templated").get "ipmiGatewayServerId")) := by
  simp only [finalizeOrigin]
  split
  · rename_i absent
    rw [isUndefined_iff.mp absent]
    rfl
  · rw [JsValue.get_set, if_pos rfl, get_collapsed (by decide), JsValue.get_set, if_pos rfl]

theorem stamp_finalizeOrigin (stamp : key ∈ stampKeys) (ne : key ≠ "ipmiGatewayServerId") :
    ((finalizeOrigin servers origin).get "templated").get key = (origin.get "templated").get key := by
  simp only [finalizeOrigin]
  split
  · rfl
  · rw [JsValue.get_set, if_pos rfl, get_collapsed stamp, JsValue.get_set, if_neg (Ne.symm ne)]

def remappedStamp (idMap : SeqMap JsString JsString) (profiles : List JsString) (templated : JsValue) (key : String) :
    JsValue :=
  if key = "ipmiGatewayServerId" then .ofOption (rawLink idMap (templated.get key))
  else if key = "ipmiAuthProfileId" then .ofOption (linkToImportedProfile idMap profiles (templated.get key))
  else templated.get key

theorem remappedStamp_undefined (absent : templated.get key = .undefined) :
    remappedStamp idMap profiles templated key = .undefined := by
  unfold remappedStamp
  rw [absent]
  split
  · rfl
  · split <;> rfl

/-- A well-formed origin and what the first pass makes of it. -/
structure OriginRemapped (idMap : SeqMap JsString JsString) (profiles : List JsString) (origin next : JsValue) :
    Prop where
  object : next.isObject
  kept : ∀ key, key ≠ "syncedAuthProfileId" → key ≠ "templated" → next.get key = origin.get key
  synced : next.get "syncedAuthProfileId" =
    .ofOption (linkToImportedProfile idMap profiles (origin.get "syncedAuthProfileId"))
  bag : (next.get "templated").isUndefined || (next.get "templated").isObject
  stamps : ∀ key ∈ stampKeys, (next.get "templated").get key =
    remappedStamp idMap profiles (origin.get "templated") key

theorem object_of_valid (valid : isValidServerOrigin origin) : origin.isObject := by
  simp only [isValidServerOrigin, Bool.and_eq_true] at valid
  obtain ⟨⟨⟨⟨⟨⟨⟨⟨⟨⟨⟨⟨object, -⟩, -⟩, -⟩, -⟩, -⟩, -⟩, -⟩, -⟩, -⟩, -⟩,
    -⟩, -⟩ := valid
  exact object

theorem bag_of_valid (valid : isValidServerOrigin origin) :
    (origin.get "templated").isUndefined = true ∨ isValidTemplatedStamps (origin.get "templated") = true := by
  simp only [isValidServerOrigin, Bool.and_eq_true, Bool.or_eq_true] at valid
  obtain ⟨⟨⟨⟨⟨⟨⟨⟨⟨⟨⟨⟨-, bag⟩, -⟩, -⟩, -⟩, -⟩, -⟩, -⟩, -⟩, -⟩, -⟩,
    -⟩, -⟩ := valid
  exact bag

theorem isObject_set (value held : JsValue) (key : String) : (value.set key held).isObject = true := by
  cases value <;> rfl

theorem remapOriginStamp_spec (valid : isValidServerOrigin origin) :
    OriginRemapped idMap profiles origin (remapOriginStamp idMap profiles origin) := by
  have object := object_of_valid valid
  simp only [remapOriginStamp, valid, Bool.not_true, Bool.false_or]
  split
  · rename_i bare
    rw [Bool.and_eq_true, isUndefined_iff, Bool.not_eq_true'] at bare
    refine ⟨object, fun _ _ _ => rfl, by rw [bare.1]; rfl, ?_, fun key stamp => ?_⟩
    · rw [Bool.or_eq_true]
      refine (bag_of_valid valid).imp_right fun stamped => ?_
      simp only [isValidTemplatedStamps, Bool.and_eq_true] at stamped
      tauto
    · have absent := undefined_of_no_stamp bare.2 stamp
      rw [remappedStamp_undefined absent, absent]
  · split
    · rename_i absent
      rw [isUndefined_iff] at absent
      refine ⟨isObject_set _ _ _, fun key ne _ => ?_, ?_, ?_, fun key _ => ?_⟩
      · rw [JsValue.get_set, if_neg (Ne.symm ne)]
      · rw [JsValue.get_set, if_pos rfl]
      · rw [JsValue.get_set, if_neg (by decide), absent]
        rfl
      · rw [JsValue.get_set, if_neg (by decide), remappedStamp_undefined (by rw [absent]; rfl), absent]
        rfl
    · refine ⟨isObject_set _ _ _, fun key ne differ => ?_, ?_, ?_, fun key stamp => ?_⟩
      · rw [JsValue.get_set, if_neg (Ne.symm differ), JsValue.get_set, if_neg (Ne.symm ne)]
      · rw [JsValue.get_set, if_neg (by decide), JsValue.get_set, if_pos rfl]
      · rw [JsValue.get_set, if_pos rfl]
        unfold collapsed
        split
        · rw [isObject_set, Bool.or_true]
        · rfl
      · rw [JsValue.get_set, if_pos rfl, get_collapsed stamp, JsValue.get_set, JsValue.get_set, remappedStamp]
        simp only [eq_comm]
        by_cases gateway : key = "ipmiGatewayServerId"
        · subst gateway
          simp
        · by_cases profile : key = "ipmiAuthProfileId"
          · subst profile
            simp
          · simp [gateway, profile]

theorem synced_remapped (valid : isValidServerOrigin origin) :
    (finalizeOrigin servers (remapOriginStamp idMap profiles origin)).get "syncedAuthProfileId" =
      .ofOption (linkToImportedProfile idMap profiles (origin.get "syncedAuthProfileId")) := by
  rw [get_finalizeOrigin (by decide), (remapOriginStamp_spec valid).synced]

theorem ipmi_remapped (valid : isValidServerOrigin origin) :
    ((finalizeOrigin servers (remapOriginStamp idMap profiles origin)).get "templated").get "ipmiAuthProfileId" =
      .ofOption (linkToImportedProfile idMap profiles ((origin.get "templated").get "ipmiAuthProfileId")) := by
  rw [stamp_finalizeOrigin (by decide) (by decide), (remapOriginStamp_spec valid).stamps _ (by decide)]
  rfl

theorem gateway_remapped (valid : isValidServerOrigin origin) :
    ((finalizeOrigin servers (remapOriginStamp idMap profiles origin)).get "templated").get "ipmiGatewayServerId" =
      .ofOption (linkToImportedServer servers
        (.ofOption (rawLink idMap ((origin.get "templated").get "ipmiGatewayServerId")))) := by
  rw [gateway_finalizeOrigin, (remapOriginStamp_spec valid).stamps _ (by decide)]
  rfl

theorem optional_ofOption {held : Option JsString} (ne : ∀ new, held = some new → new ≠ []) :
    isOptionalNonEmptyString (.ofOption held) = true := by
  cases held with
  | none => rfl
  | some new => simpa [isOptionalNonEmptyString, isNonEmptyString, JsValue.ofOption, JsValue.asString,
      JsValue.isUndefined] using ne new rfl

theorem mem_of_linkToImportedServer {new : JsString} (link : linkToImportedServer servers value = some new) :
    new ∈ servers := by
  rw [linkToImportedServer, Option.filter_eq_some_iff] at link
  simpa using link.2

theorem bag_finalizeOrigin (bag : ((origin.get "templated").isUndefined || (origin.get "templated").isObject) = true) :
    (((finalizeOrigin servers origin).get "templated").isUndefined ||
      ((finalizeOrigin servers origin).get "templated").isObject) = true := by
  simp only [finalizeOrigin]
  split
  · exact bag
  · rw [JsValue.get_set, if_pos rfl]
    unfold collapsed
    split
    · rw [isObject_set, Bool.or_true]
    · rfl

/-- A well-formed origin stays one. -/
theorem valid_remapped (valid : isValidServerOrigin origin) (profilesNamed : ∀ new ∈ profiles, new ≠ [])
    (serversNamed : ∀ new ∈ servers, new ≠ []) :
    isValidServerOrigin (finalizeOrigin servers (remapOriginStamp idMap profiles origin)) = true := by
  have spec := @remapOriginStamp_spec idMap profiles origin valid
  have linkNamed : ∀ value new, linkToImportedProfile idMap profiles value = some new → new ≠ [] :=
    fun value new link => profilesNamed new (mem_of_linkToImportedProfile link).2
  have kept : ∀ key, key ≠ "syncedAuthProfileId" → key ≠ "templated" →
      (finalizeOrigin servers (remapOriginStamp idMap profiles origin)).get key = origin.get key :=
    fun key ne differ => (get_finalizeOrigin differ).trans (spec.kept key ne differ)
  have stamps :
    isValidTemplatedStamps ((finalizeOrigin servers (remapOriginStamp idMap profiles origin)).get "templated")
      = true ∨ ((finalizeOrigin servers (remapOriginStamp idMap profiles origin)).get "templated").isUndefined =
        true := by
    refine (Bool.or_eq_true_iff.mp (bag_finalizeOrigin spec.bag)).symm.imp_left fun object => ?_
    have plain : ∀ key ∈ stampKeys, key ≠ "ipmiGatewayServerId" → key ≠ "ipmiAuthProfileId" →
        ((finalizeOrigin servers (remapOriginStamp idMap profiles origin)).get "templated").get key =
          (origin.get "templated").get key := by
      intro key stamp ne differ
      rw [stamp_finalizeOrigin stamp ne, spec.stamps key stamp, remappedStamp, if_neg ne, if_neg differ]
    simp only [isValidTemplatedStamps, object, ipmi_remapped valid, gateway_remapped valid,
      plain "proxy" (by decide) (by decide) (by decide), plain "multiplexing" (by decide) (by decide) (by decide),
      plain "legacyAlgorithms" (by decide) (by decide) (by decide),
        plain "logSession" (by decide) (by decide) (by decide),
      optional_ofOption (linkNamed _), Bool.true_and, Bool.and_true, Bool.and_eq_true]
    refine ⟨?_, optional_ofOption fun new link => serversNamed new (mem_of_linkToImportedServer link)⟩
    rcases bag_of_valid valid with absent | stamped
    · rw [isUndefined_iff.mp absent]
      decide
    · simp only [isValidTemplatedStamps, Bool.and_eq_true] at stamped
      obtain ⟨⟨⟨⟨⟨⟨-, proxy⟩, multiplexing⟩, algorithms⟩, log⟩, -⟩, -⟩ := stamped
      exact ⟨⟨⟨proxy, multiplexing⟩, algorithms⟩, log⟩
  have object : (finalizeOrigin servers (remapOriginStamp idMap profiles origin)).isObject = true := by
    simp only [finalizeOrigin]
    split
    · exact spec.object
    · exact isObject_set _ _ _
  simp only [isValidServerOrigin, object, synced_remapped valid, optional_ofOption (linkNamed _),
    kept "sourceId" (by decide) (by decide), kept "externalId" (by decide) (by decide),
    kept "syncedAt" (by decide) (by decide), kept "syncedInstanceKey" (by decide) (by decide),
    kept "syncedUsername" (by decide) (by decide), kept "syncedIpmiHost" (by decide) (by decide),
    kept "syncedAltHost" (by decide) (by decide), kept "syncedProtocol" (by decide) (by decide),
    kept "syncedHost" (by decide) (by decide), kept "syncedPort" (by decide) (by decide)]
  simp only [isValidServerOrigin, Bool.and_eq_true] at valid
  obtain ⟨⟨⟨⟨⟨⟨⟨⟨⟨⟨⟨⟨-, -⟩, source⟩, dev⟩, moment⟩, instance'⟩, username⟩, -⟩,
    ipmi⟩, alt⟩, protocol⟩, host⟩, port⟩ := valid
  simp only [source, dev, moment, instance', username, ipmi, alt, protocol, host, port, Bool.and_true, Bool.true_and,
    Bool.or_eq_true]
  exact stamps.symm

end Origin

section Passes

def SameBut (keys : List String) (r r' : JsRecord) : Prop := ∀ key ∉ keys, r'.get key = r.get key

theorem SameBut.refl (keys : List String) (r : JsRecord) : SameBut keys r r := fun _ _ => rfl

variable {keys : List String}

theorem SameBut.trans {a b c : JsRecord} (first : SameBut keys a b) (second : SameBut keys b c) :
    SameBut keys a c := fun key other => (second key other).trans (first key other)

theorem SameBut.mono {more : List String} {r r' : JsRecord} (same : SameBut keys r r') (within : keys ⊆ more) :
    SameBut more r r' := fun key other => same key fun mem => other (within mem)

theorem sameBut_set {key : String} (mem : key ∈ keys) (r : JsRecord) (value : JsValue) :
    SameBut keys r (r.set key value) := by
  intro other unlisted
  rw [JsRecord.get_set, if_neg]
  rintro rfl
  exact unlisted mem

theorem sameBut_remove {key : String} (mem : key ∈ keys) (r : JsRecord) : SameBut keys r (r.remove key) := by
  intro other unlisted
  rw [JsRecord.get_remove, if_neg]
  rintro rfl
  exact unlisted mem

theorem ensureId_same (drawn : Nat) (item : JsRecord) : SameBut ["id"] item (ensureId uuid drawn item).1 := by
  unfold ensureId
  split
  · exact .refl _ _
  · exact sameBut_set (by simp) _ _

theorem assignIds_rows (given : Minting JsString) {items : List JsRecord} {row : JsRecord}
    (mem : row ∈ (assignIds uuid given items).1) : ∃ item ∈ items, SameBut ["id"] item row := by
  induction items generalizing given with
  | nil => cases mem
  | cons item rest ih =>
    rcases List.mem_cons.mp mem with rfl | later
    · exact ⟨item, List.mem_cons_self, ensureId_same _ _⟩
    · obtain ⟨hit, present, same⟩ := ih _ later
      exact ⟨hit, List.mem_cons_of_mem _ present, same⟩

theorem assignIds_drawn {given : Minting JsString} (drawn : Minting.Drawn uuid given.idMap) (items : List JsRecord) :
    Minting.Drawn uuid (assignIds uuid given items).2.idMap := by
  induction items generalizing given with
  | nil => exact drawn
  | cons item rest ih =>
    refine ih ?_
    exact @Minting.Drawn.mint _ _ uuid { given with drawn := (ensureId uuid given.drawn item).2 } drawn _

theorem shareIds_drawn : Minting.Drawn uuid (shareIds uuid data) :=
  assignIds_drawn (assignIds_drawn Minting.drawn_empty _) _

theorem mapped_drawn {value : JsValue} {new : JsString} (hit : mapped (shareIds uuid data) value = some new) :
    ∃ k, new = uuid k := by
  obtain ⟨text, -, got⟩ := Option.bind_eq_some_iff.mp hit
  exact shareIds_drawn text new got

theorem idOf_named (named : isNonEmptyString (r.get "id") = true) :
    r.get "id" = .string (idOf r) ∧ idOf r ≠ [] := by
  unfold idOf
  unfold isNonEmptyString at named
  cases held : r.get "id" <;> simp_all [JsValue.asString]

theorem named_of_validAuthProfile (valid : validateAuthProfile r = true) : isNonEmptyString (r.get "id") = true := by
  simp only [validateAuthProfile, Bool.and_eq_true] at valid
  exact valid.1.1.1.1

theorem named_of_validServer (valid : validateServerConfig r = true) : isNonEmptyString (r.get "id") = true := by
  simp only [validateServerConfig, Bool.and_eq_true] at valid
  exact valid.1.1.1.1.2

theorem idOf_remapped {value : JsValue} (own : r.get "id" = .ofOption (mapped (shareIds uuid data) value))
    (named : isNonEmptyString (r.get "id") = true) : ∃ k, idOf r = uuid k := by
  cases hit : mapped (shareIds uuid data) value with
  | none =>
    rw [own, hit] at named
    cases named
  | some new =>
    obtain ⟨k, rfl⟩ := mapped_drawn hit
    exact ⟨k, by rw [idOf, own, hit]; rfl⟩

end Passes

section Buckets

variable {before bucket : Bucket} {landed : List JsRecord}

/-- What is in a bucket after the import and was not there before. -/
def Imported (before after : Bucket) (id : JsString) (r : JsRecord) : Prop :=
  after.get? id = some r ∧ before.get? id = none

theorem get?_put (bucket : Bucket) (r : JsRecord) (id : JsString) :
    (put bucket r).get? id = if idOf r = id then some r else bucket.get? id := SeqMap.get?_set _ _ _ _

theorem get?_foldl_put (unwritten : id ∉ landed.map idOf) : (landed.foldl put bucket).get? id = bucket.get? id := by
  induction landed generalizing bucket with
  | nil => rfl
  | cons first rest ih =>
    rw [List.map_cons, List.mem_cons, not_or] at unwritten
    rw [List.foldl_cons, ih unwritten.2, get?_put, if_neg (Ne.symm unwritten.1)]

theorem isSome_foldl_put (written : id ∈ landed.map idOf) : ((landed.foldl put bucket).get? id).isSome := by
  induction landed generalizing bucket with
  | nil => cases written
  | cons first rest ih =>
    rw [List.foldl_cons]
    by_cases later : id ∈ rest.map idOf
    · exact ih later
    · rw [get?_foldl_put later, get?_put, if_pos ((List.mem_cons.mp written).resolve_right later).symm]
      rfl

theorem importEach_kept {remap : JsRecord → JsRecord} {validate : JsRecord → Bool} {drawn : Nat}
    {items : List JsRecord}
    (unused : ∀ k, uuid k ≠ id) :
    (importEach uuid remap validate bucket drawn items).1.get? id = bucket.get? id := by
  induction items generalizing bucket drawn with
  | nil => rfl
  | cons item rest ih =>
    rw [importEach, ih]
    split
    · rw [get?_put, if_neg]
      exact unused _
    · rfl

theorem importEach_rows {remap : JsRecord → JsRecord} {validate : JsRecord → Bool} {drawn : Nat}
    {items : List JsRecord}
    (hit : (importEach uuid remap validate bucket drawn items).1.get? id = some r) :
    bucket.get? id = some r ∨ ∃ item ∈ items, ∃ row, SameBut ["id"] item row ∧
      SameBut ["id"] (remap row) r := by
  induction items generalizing bucket drawn with
  | nil => exact .inl hit
  | cons item rest ih =>
    rcases ih hit with earlier | ⟨other, present, row, same, copy⟩
    · split at earlier
      · rw [get?_put] at earlier
        split at earlier
        · obtain rfl := Option.some.inj earlier
          exact .inr ⟨item, List.mem_cons_self, _, ensureId_same _ _, sameBut_set (by simp) _ _⟩
        · exact .inl earlier
      · exact .inl earlier
    · exact .inr ⟨other, List.mem_cons_of_mem _ present, row, same, copy⟩

def explorerKey : List String := ["openFileExplorerOnFirstConnect"]

theorem get?_addOrUpdateServer (servers : Bucket) (server : JsRecord) (id : JsString) :
    (addOrUpdateServer servers server).get? id =
      if idOf server = id then some (if opensExplorer server then server else withoutExplorer server)
      else (servers.get? id).map fun existing =>
        if opensExplorer server ∧ opensExplorer existing then withoutExplorer existing else existing := by
  have own : idOf (withoutExplorer server) = idOf server := by
    simp [idOf, withoutExplorer]
  have closed : opensExplorer (withoutExplorer server) = false := by
    simp [opensExplorer, withoutExplorer, JsValue.truthy]
  unfold addOrUpdateServer
  by_cases opens : opensExplorer server = true
  · simp only [opens, if_true, get?_put, SeqMap.get?_mapEntries]
    by_cases same : idOf server = id
    · simp [same]
    · simp [Ne.symm same]
  · simp only [opens, Bool.false_eq_true, if_false, closed, get?_put, own]
    split
    · rfl
    · simp

theorem stripOrigin_same (server : JsRecord) : SameBut ["origin"] server (stripOrigin server) := by
  unfold stripOrigin
  split
  · exact sameBut_remove (by simp) _
  · exact .refl _ _

theorem stripMarker_same (stripped : Bool) (server : JsRecord) :
    SameBut ["formerlySynced"] server (stripMarker stripped server) := by
  unfold stripMarker
  split
  · exact sameBut_remove (by simp) _
  · exact .refl _ _

theorem sanitizeOrigin_same (server : JsRecord) : SameBut ["origin", "formerlySynced"] server (sanitizeOrigin server) :=
  ((stripOrigin_same server).mono (by simp)).trans ((stripMarker_same _ _).mono (by simp))

theorem idOf_sanitizeOrigin (server : JsRecord) : idOf (sanitizeOrigin server) = idOf server := by
  rw [idOf, sanitizeOrigin_same server "id" (by decide), idOf]

theorem opensExplorer_sanitizeOrigin (server : JsRecord) :
    opensExplorer (sanitizeOrigin server) = opensExplorer server := by
  rw [opensExplorer, sanitizeOrigin_same server _ (by decide), opensExplorer]

theorem sanitizeOrigin_valid {server : JsRecord} (valid : isValidServerOrigin (server.get "origin") = true) :
    (sanitizeOrigin server).get "origin" = server.get "origin" := by
  have formed : originMalformed server = false := by simp [originMalformed, valid]
  rw [sanitizeOrigin, stripMarker_same _ _ "origin" (by decide), stripOrigin, formed]
  rfl

theorem sanitizeOrigin_unmarked {server : JsRecord} (unmarked : server.get "formerlySynced" = .undefined) :
    (sanitizeOrigin server).get "formerlySynced" = .undefined := by
  have still : (stripOrigin server).get "formerlySynced" = .undefined :=
    (stripOrigin_same server "formerlySynced" (by decide)).trans unmarked
  simp [sanitizeOrigin, stripMarker, still, JsValue.isUndefined]

theorem withoutExplorer_same (server : JsRecord) : SameBut explorerKey server (withoutExplorer server) :=
  sameBut_set (by simp [explorerKey]) _ _

theorem opensExplorer_withoutExplorer (server : JsRecord) : opensExplorer (withoutExplorer server) = false := by
  simp [opensExplorer, withoutExplorer, JsValue.truthy]

/-- A server that the import does not write keeps everything but that it opens the explorer. -/
theorem servers_kept (unwritten : id ∉ landed.map idOf) (hit : bucket.get? id = some r) :
    (landed.foldl addServerSanitizingOrigin bucket).get? id = some r ∨
      opensExplorer r = true ∧ (∃ s ∈ landed, opensExplorer s = true) ∧
        (landed.foldl addServerSanitizingOrigin bucket).get? id = some (withoutExplorer r) := by
  induction landed generalizing bucket r with
  | nil => exact .inl hit
  | cons first rest ih =>
    rw [List.map_cons, List.mem_cons, not_or] at unwritten
    have step : (addServerSanitizingOrigin bucket first).get? id =
        some (if opensExplorer first ∧ opensExplorer r then withoutExplorer r else r) := by
      rw [addServerSanitizingOrigin, get?_addOrUpdateServer, idOf_sanitizeOrigin, if_neg (Ne.symm unwritten.1), hit,
        Option.map_some, opensExplorer_sanitizeOrigin]
    rw [List.foldl_cons]
    by_cases both : opensExplorer first ∧ opensExplorer r
    · rw [if_pos both] at step
      rcases ih unwritten.2 step with same | ⟨opens, -⟩
      · exact .inr ⟨both.2, ⟨first, List.mem_cons_self, both.1⟩, same⟩
      · rw [opensExplorer_withoutExplorer] at opens
        cases opens
    · rw [if_neg both] at step
      refine (ih unwritten.2 step).imp_right ?_
      rintro ⟨opens, ⟨s, mem, opener⟩, cleared⟩
      exact ⟨opens, ⟨s, List.mem_cons_of_mem _ mem, opener⟩, cleared⟩

theorem servers_rows (hit : (landed.foldl addServerSanitizingOrigin bucket).get? id = some r) :
    (∃ r₀, bucket.get? id = some r₀ ∧ SameBut explorerKey r₀ r) ∨
      ∃ s ∈ landed, SameBut explorerKey (sanitizeOrigin s) r := by
  induction landed generalizing bucket with
  | nil => exact .inl ⟨r, hit, .refl _ _⟩
  | cons first rest ih =>
    rcases ih hit with ⟨r₁, held, same⟩ | ⟨s, mem, same⟩
    · rw [addServerSanitizingOrigin, get?_addOrUpdateServer] at held
      split at held
      · refine .inr ⟨first, List.mem_cons_self, .trans ?_ same⟩
        obtain rfl := Option.some.inj held
        split
        · exact .refl _ _
        · exact withoutExplorer_same _
      · obtain ⟨r₀, earlier, rfl⟩ := Option.map_eq_some_iff.mp held
        refine .inl ⟨r₀, earlier, .trans ?_ same⟩
        split
        · exact withoutExplorer_same _
        · exact .refl _ _
    · exact .inr ⟨s, List.mem_cons_of_mem _ mem, same⟩

theorem isSome_servers (known : id ∈ landed.map idOf ∨ (bucket.get? id).isSome) :
    ((landed.foldl addServerSanitizingOrigin bucket).get? id).isSome := by
  induction landed generalizing bucket with
  | nil => exact known.resolve_left nofun
  | cons first rest ih =>
    refine ih ?_
    rw [addServerSanitizingOrigin, get?_addOrUpdateServer, idOf_sanitizeOrigin]
    rcases known with written | held
    · rcases List.mem_cons.mp written with rfl | later
      · exact .inr (by rw [if_pos rfl]; rfl)
      · exact .inl later
    · refine .inr ?_
      split
      · rfl
      · rwa [Option.isSome_map]

end Buckets

section Landed

structure Unused (uuid : Nat → JsString) (store : RecordStore) : Prop where
  servers : ∀ k, store.servers.get? (uuid k) = none
  tunnels : ∀ k, store.tunnels.get? (uuid k) = none
  serialProfiles : ∀ k, store.serialProfiles.get? (uuid k) = none
  localShellProfiles : ∀ k, store.localShellProfiles.get? (uuid k) = none
  authProfiles : ∀ k, store.authProfiles.get? (uuid k) = none

theorem landedProfile_id {p : JsRecord} (mem : p ∈ landedProfiles uuid data) :
    (∃ k, idOf p = uuid k) ∧ idOf p ≠ [] := by
  obtain ⟨copied, valid⟩ := List.mem_filter.mp mem
  obtain ⟨row, -, rfl⟩ := List.mem_map.mp copied
  have named := named_of_validAuthProfile valid
  exact ⟨@idOf_remapped uuid data _ (row.get "id") (by rw [remapAuthProfile, JsRecord.get_set, if_pos rfl]) named,
    (idOf_named named).2⟩

theorem remappedServer_id {s : JsRecord} (mem : s ∈ remappedServers uuid data)
    (valid : validateServerConfig s = true) :
    (∃ k, idOf s = uuid k) ∧ idOf s ≠ [] := by
  obtain ⟨row, -, rfl⟩ := List.mem_map.mp mem
  have named := named_of_validServer valid
  exact ⟨@idOf_remapped uuid data _ (row.get "id") (by simp [remapServer]) named, (idOf_named named).2⟩

variable {new : JsString}

theorem importedProfileIds_named (mem : new ∈ importedProfileIds uuid data) : new ≠ [] := by
  obtain ⟨p, landed, rfl⟩ := List.mem_map.mp mem
  exact (landedProfile_id landed).2

theorem importedServerIds_named (mem : new ∈ importedServerIds uuid data) : new ≠ [] := by
  obtain ⟨s, landed, rfl⟩ := List.mem_map.mp mem
  obtain ⟨copied, valid⟩ := List.mem_filter.mp landed
  exact (remappedServer_id copied valid).2

theorem finalizeServer_same (servers : List JsString) (s : JsRecord) :
    SameBut ["ipmiGatewayServerId", "origin"] s (finalizeServer servers s) :=
  (sameBut_set (by simp) _ _).trans (sameBut_set (by simp) _ _)

theorem remapServer_same (idMap : SeqMap JsString JsString) (profiles : List JsString) (row : JsRecord) :
    SameBut ["id", "proxy", "authProfileId", "ipmiAuthProfileId", "ipmiGatewayServerId", "origin", "formerlySynced"] row
      (remapServer idMap profiles row) :=
  ((((((sameBut_set (by simp) _ _).trans (sameBut_set (by simp) _ _)).trans (sameBut_set (by simp) _ _)).trans
    (sameBut_set (by simp) _ _)).trans (sameBut_set (by simp) _ _)).trans (sameBut_set (by simp) _ _)).trans
    (sameBut_set (by simp) _ _)

theorem valid_finalized {s : JsRecord} (valid : validateServerConfig s = true) :
    validateServerConfig (finalizeServer (importedServerIds uuid data) s) = true := by
  have same := finalizeServer_same (importedServerIds uuid data) s
  have own : validateOwnFields (finalizeServer (importedServerIds uuid data) s) = validateOwnFields s := by
    simp [validateOwnFields, same "protocol" (by decide), same "name" (by decide), same "addressless" (by decide),
      same "host" (by decide), same "port" (by decide), same "username" (by decide), same "authType" (by decide),
      same "legacyAlgorithms" (by decide), same "openFileExplorerOnFirstConnect" (by decide),
        same "keyPath" (by decide),
      same "ipmiHost" (by decide), same "altHost" (by decide), same "bmcWebProtocol" (by decide)]
  have gateway : isOptionalNonEmptyString ((finalizeServer (importedServerIds uuid data) s).get "ipmiGatewayServerId")
      = true := by
    exact optional_ofOption fun new link => importedServerIds_named (mem_of_linkToImportedServer link)
  simp only [validateServerConfig, own, gateway, same "id" (by decide), same "proxy" (by decide),
    same "authProfileId" (by decide), same "ipmiAuthProfileId" (by decide), Bool.and_true]
  simp only [validateServerConfig, Bool.and_eq_true] at valid ⊢
  exact valid.1

theorem idOf_finalizeServer (servers : List JsString) (s : JsRecord) : idOf (finalizeServer servers s) = idOf s := by
  rw [idOf, finalizeServer_same servers s "id" (by decide), idOf]

theorem landedServer_id {s : JsRecord} (mem : s ∈ landedServers uuid data) :
    (∃ k, idOf s = uuid k) ∧ idOf s ≠ [] := by
  obtain ⟨copied, valid⟩ := List.mem_filter.mp mem
  obtain ⟨remapped, from', rfl⟩ := List.mem_map.mp copied
  obtain ⟨row, -, rfl⟩ := List.mem_map.mp from'
  have named := named_of_validServer valid
  refine ⟨@idOf_remapped uuid data _ (row.get "id") ?_ named, (idOf_named named).2⟩
  rw [finalizeServer_same _ _ "id" (by decide)]
  simp [remapServer]

theorem mem_landed_of_imported (mem : new ∈ importedServerIds uuid data) :
    new ∈ (landedServers uuid data).map idOf := by
  obtain ⟨s, landed, rfl⟩ := List.mem_map.mp mem
  obtain ⟨copied, valid⟩ := List.mem_filter.mp landed
  rw [← idOf_finalizeServer (importedServerIds uuid data) s]
  exact List.mem_map_of_mem (List.mem_filter.mpr ⟨List.mem_map_of_mem copied, valid_finalized valid⟩)

theorem profile_imported (unused : Unused uuid store) (mem : new ∈ importedProfileIds uuid data) :
    ∃ p, Imported store.authProfiles (importShareData uuid data store).authProfiles new p := by
  obtain ⟨p, hit⟩ := Option.isSome_iff_exists.mp (@isSome_foldl_put new store.authProfiles _ mem)
  obtain ⟨landed, present, rfl⟩ := List.mem_map.mp mem
  obtain ⟨k, fresh⟩ := (landedProfile_id present).1
  exact ⟨p, hit, fresh ▸ unused.authProfiles k⟩

theorem landed_imported (unused : Unused uuid store) {own : JsRecord} (mem : own ∈ landedServers uuid data) :
    ∃ s, Imported store.servers (importShareData uuid data store).servers (idOf own) s := by
  obtain ⟨s, hit⟩ :=
    Option.isSome_iff_exists.mp (@isSome_servers _ store.servers _ (.inl (List.mem_map_of_mem mem)))
  obtain ⟨k, fresh⟩ := (landedServer_id mem).1
  exact ⟨s, hit, fresh ▸ unused.servers k⟩

theorem server_imported (unused : Unused uuid store) (mem : new ∈ importedServerIds uuid data) :
    ∃ s, Imported store.servers (importShareData uuid data store).servers new s := by
  obtain ⟨own, present, rfl⟩ := List.mem_map.mp (mem_landed_of_imported mem)
  exact landed_imported unused present

end Landed

end NexTerminal.Exchange
