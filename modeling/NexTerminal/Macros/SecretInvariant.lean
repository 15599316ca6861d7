import NexTerminal.Macros.SavedSecrets

namespace NexTerminal.Macros.Tracked

open Library

variable {uuid : Nat → String} {t : Tracked} {entries : List (Option (MacroEntry Standing))}

structure Row (uuid : Nat → String) (t : Tracked) (entries : List (Option (MacroEntry Standing))) (k : Nat)
    (arrived : TerminalMacro Standing) (a : Assignment Standing) : Prop where
  came : (incoming entries)[k]? = some arrived
  left : (t.store.assignments uuid entries).1[k]? = some a
  record : a.record = { arrived with id := some a.id }
  prior : a.priorId = arrived.priorId
  source : arrived.priorId = some a.id ∨
    ∃ n, t.store.drawn ≤ n ∧ n < (t.store.write uuid entries).drawn ∧ a.id = uuid n

theorem row_of_came {k : Nat} {arrived : TerminalMacro Standing} (came : (incoming entries)[k]? = some arrived) :
    ∃ a, Row uuid t entries k arrived a := by
  obtain ⟨a, left, record, prior, source⟩ := assignMacroIds_getElem? t.store.drawn t.store.cannotCarrySecret came
  exact ⟨a, came, left, record, prior, source⟩

variable {a : Assignment Standing}

theorem row_of_left {k : Nat} (left : (t.store.assignments uuid entries).1[k]? = some a) :
    ∃ arrived, Row uuid t entries k arrived a := by
  have inside := (List.getElem?_eq_some_iff.mp left).1
  rw [VscodeMacroStore.assignments, assignMacroIds_length] at inside
  obtain ⟨other, row⟩ := @row_of_came uuid t _ _ _ (List.getElem?_eq_getElem inside)
  obtain rfl : other = a := Option.mem_unique row.left left
  exact ⟨_, row⟩

theorem row_of_mem (mem : a ∈ (t.store.assignments uuid entries).1) :
    ∃ k arrived, Row uuid t entries k arrived a := by
  obtain ⟨k, left⟩ := List.mem_iff_getElem?.mp mem
  exact ⟨k, row_of_left left⟩

theorem row_of_resolved {k : Nat} {saved : TerminalMacro Standing}
    (hit : (t.write uuid entries).store.resolved[k]? = some saved) :
    ∃ arrived a, Row uuid t entries k arrived a ∧ saved = a.record := by
  change (((t.store.assignments uuid entries).1).map Assignment.record)[k]? = some saved at hit
  rw [List.getElem?_map, Option.map_eq_some_iff] at hit
  obtain ⟨a, left, rfl⟩ := hit
  obtain ⟨arrived, row⟩ := row_of_left left
  exact ⟨arrived, a, row, rfl⟩

variable {arrived : TerminalMacro Standing}

theorem cannotCarrySecret_iff {store : VscodeMacroStore Standing} :
    store.cannotCarrySecret arrived = true ↔ arrived.secret = true ∧ arrived.text = "" ∧
      ∃ id ∈ store.unresolvedSecretIds, arrived.priorId = some id := by
  simp only [VscodeMacroStore.cannotCarrySecret, Bool.and_eq_true, decide_eq_true_eq, Option.any_eq_true]
  constructor
  · rintro ⟨⟨isSecret, blank⟩, id, prior, unresolved⟩
    exact ⟨isSecret, blank, id, unresolved, prior⟩
  · rintro ⟨isSecret, blank, id, unresolved, prior⟩
    exact ⟨⟨isSecret, blank⟩, id, prior, unresolved⟩

namespace Row

variable {k : Nat} {arrived : TerminalMacro Standing} {a : Assignment Standing} (row : Row uuid t entries k arrived a)
include row

theorem mem : a ∈ (t.store.assignments uuid entries).1 := List.mem_of_getElem? row.left

theorem secret : a.record.secret = arrived.secret := by rw [row.record]

theorem text : a.record.text = arrived.text := by rw [row.record]

theorem rest : a.record.rest = arrived.rest := by rw [row.record]

theorem id : a.record.id = some a.id := by rw [row.record]

theorem resolved : (t.write uuid entries).store.resolved[k]? = some a.record := by
  change (((t.store.assignments uuid entries).1).map Assignment.record)[k]? = _
  rw [List.getElem?_map, row.left, Option.map_some]

theorem unknown (isSecret : arrived.secret = true) : t.store.unknown a = t.store.cannotCarrySecret arrived := by
  rw [VscodeMacroStore.unknown, VscodeMacroStore.cannotCarrySecret, row.text, row.prior, isSecret, Bool.true_and]

variable (nodup : Function.Injective uuid)
include nodup

theorem position {j : Nat} {other : TerminalMacro Standing} {b : Assignment Standing}
    (second : Row uuid t entries j other b) (same : b.id = a.id) : j = k := by
  have ne := VscodeMacroStore.assignments_apart nodup t.store entries
  have first_at : ((t.store.assignments uuid entries).1.map Assignment.id)[k]? = some a.id := by
    rw [List.getElem?_map, row.left, Option.map_some]
  have second_at : ((t.store.assignments uuid entries).1.map Assignment.id)[j]? = some a.id := by
    rw [List.getElem?_map, second.left, Option.map_some, same]
  exact List.getElem?_inj (List.getElem?_eq_some_iff.mp second_at).1 ne |>.mp (second_at.trans first_at.symm)

theorem known (isSecret : arrived.secret = true) (carried : t.store.cannotCarrySecret arrived = false) :
    (t.write uuid entries).store.secret (some a.id) = some arrived.text := by
  rw [← row.text]
  exact VscodeMacroStore.write_known nodup row.mem (row.secret.trans isSecret)
    ((row.unknown isSecret).trans carried)

theorem untouched (pinned : t.store.cannotCarrySecret arrived = true) :
    (t.write uuid entries).store.secret (some a.id) = t.store.secret (some a.id) :=
  have isSecret := (cannotCarrySecret_iff.mp pinned).1
  VscodeMacroStore.write_unknown nodup row.mem (row.secret.trans isSecret) ((row.unknown isSecret).trans pinned)

omit nodup in
theorem keeps {id : String} (prior : arrived.priorId = some id) (pinned : t.store.cannotCarrySecret arrived = true)
    (first : ∀ (j : Nat) (other : TerminalMacro Standing), j < k → (incoming entries)[j]? = some other →
      other.priorId = some id → t.store.cannotCarrySecret other = false) : a.id = id :=
  assignMacroIds_first t.store.drawn t.store.cannotCarrySecret row.came prior pinned first row.left

theorem displaced (sound : t.Sound uuid) {id : String} (prior : arrived.priorId = some id)
    (pinned : t.store.cannotCarrySecret arrived = true) (moved : a.id ≠ id) :
    (t.write uuid entries).store.secret (some a.id) = none := by
  rw [row.untouched nodup pinned]
  obtain same | ⟨n, later, -, same⟩ := row.source
  · exact absurd (Option.mem_unique same prior) moved
  · rw [same]
    exact (sound.undrawn n later).2

end Row

theorem exists_first {k : Nat} (came : (incoming entries)[k]? = some arrived) (unread : arrived.rest.unread = true) :
    ∃ (j : Nat) (other : TerminalMacro Standing), (incoming entries)[j]? = some other ∧ other.rest.unread = true ∧
      other.id = arrived.id ∧ First entries j arrived.id ∧ (¬ First entries k arrived.id → j < k) := by
  induction k using Nat.strongRecOn generalizing arrived with
  | ind k ih =>
    by_cases first : First entries k arrived.id
    · exact ⟨k, arrived, came, unread, rfl, first, fun absent => absurd first absent⟩
    · obtain ⟨j, other, pre, at_j, also, same⟩ : ∃ (j : Nat) (other : TerminalMacro Standing), j < k ∧
          (incoming entries)[j]? = some other ∧ other.rest.unread = true ∧ other.id = arrived.id := by
        simpa only [First, not_forall, not_not, exists_prop] using first
      obtain ⟨i, least, at_i, unread_i, same_i, first_i, _⟩ := ih j pre at_j also
      rw [same] at same_i first_i
      refine ⟨i, least, at_i, unread_i, same_i, first_i, fun _ => ?_⟩
      by_contra later
      exact first_i j other (by omega) at_j also same

section Clean

variable (nodup : Function.Injective uuid) (sound : t.Sound uuid) (arriving : t.Arriving uuid entries)
  (clean : ¬ t.Slip entries) {k : Nat} {arrived : TerminalMacro Standing} {a : Assignment Standing}
  (row : Row uuid t entries k arrived a)
include arriving clean

theorem unread_pinned (came : (incoming entries)[k]? = some arrived) (unread : arrived.rest.unread = true) :
    t.store.cannotCarrySecret arrived = true := by
  obtain ⟨isSecret, blank, _⟩ := arriving.unread arrived (List.mem_of_getElem? came) unread
  by_contra carried
  refine clean ⟨k, arrived, came, isSecret, blank, ?_⟩
  rw [if_pos unread]
  simpa using carried

omit arriving in
theorem pinned_alone (came : (incoming entries)[k]? = some arrived) (entered : arrived.rest.unread = false)
    (pinned : t.store.cannotCarrySecret arrived = true) :
    t.store.secret arrived.id = some "" ∧ (∀ id, arrived.id = some id → arrived.rest.stamp ∈ t.storedFor id) ∧
      ∀ (j : Nat) (other : TerminalMacro Standing), (incoming entries)[j]? = some other →
        t.store.cannotCarrySecret other = true → other.id = arrived.id → j = k := by
  by_contra shared
  obtain ⟨isSecret, blank, _⟩ := cannotCarrySecret_iff.mp pinned
  refine clean ⟨k, arrived, came, isSecret, blank, ?_⟩
  rw [if_neg (by simp [entered])]
  exact ⟨pinned, shared⟩

include row

omit arriving in
theorem pinned_keeps {id : String} (prior : arrived.priorId = some id)
    (pinned : t.store.cannotCarrySecret arrived = true)
    (first : arrived.rest.unread = true → First entries k arrived.id) : a.id = id := by
  refine row.keeps prior pinned fun j other pre at_j same => ?_
  have own := (priorId_some.mp prior).1
  have theirs := (priorId_some.mp same).1
  by_contra also
  rw [Bool.not_eq_false] at also
  cases entered : arrived.rest.unread with
  | false =>
    have := (pinned_alone clean row.came entered pinned).2.2 j other at_j also (theirs.trans own.symm)
    omega
  | true =>
    cases other_entered : other.rest.unread with
    | true => exact first entered j other pre at_j other_entered (theirs.trans own.symm)
    | false =>
      have := (pinned_alone clean at_j other_entered also).2.2 k arrived row.came pinned (own.trans theirs.symm)
      omega

include nodup

theorem later_displaced (unread : arrived.rest.unread = true) (later : ¬ First entries k arrived.id)
    {id : String} (prior : arrived.priorId = some id) : a.id ≠ id := by
  obtain ⟨j, other, at_j, also, same, first, pre⟩ := exists_first row.came unread
  obtain ⟨b, second⟩ := @row_of_came uuid t _ _ _ at_j
  have same_prior : other.priorId = some id := by
    rw [priorId_some, same]
    exact priorId_some.mp prior
  have keeps := pinned_keeps clean second same_prior (unread_pinned arriving clean at_j also)
    fun _ => same ▸ first
  intro kept
  have := row.position nodup second (keeps.trans kept.symm)
  have := pre later
  omega

include sound

/-- What a save leaves under the final id of a secret macro. -/
theorem saved_secret (isSecret : arrived.secret = true) :
    (t.store.cannotCarrySecret arrived = false ∧ arrived.rest.unread = false ∧
        (t.write uuid entries).store.secret (some a.id) = some arrived.text) ∨
      (t.store.cannotCarrySecret arrived = true ∧ arrived.id = some a.id ∧
        (arrived.rest.unread = true → First entries k arrived.id) ∧
        (t.write uuid entries).store.secret (some a.id) = t.store.secret (some a.id)) ∨
      (arrived.rest.unread = true ∧ ¬ First entries k arrived.id ∧
        (t.write uuid entries).store.secret (some a.id) = none) := by
  cases pinned : t.store.cannotCarrySecret arrived with
  | false =>
    refine .inl ⟨rfl, ?_, row.known nodup isSecret pinned⟩
    by_contra unread
    rw [Bool.not_eq_false] at unread
    exact absurd (pinned.symm.trans (unread_pinned arriving clean row.came unread)) (by simp)
  | true =>
    obtain ⟨id, _, prior⟩ := (cannotCarrySecret_iff.mp pinned).2.2
    by_cases first : arrived.rest.unread = true → First entries k arrived.id
    · have keeps := pinned_keeps clean row prior pinned first
      exact .inr (.inl ⟨rfl, keeps ▸ (priorId_some.mp prior).1, first, row.untouched nodup pinned⟩)
    · push Not at first
      exact .inr (.inr ⟨first.1, first.2,
        row.displaced nodup sound prior pinned (later_displaced nodup arriving clean row first.1 first.2 prior)⟩)

theorem saved_owner (isSecret : arrived.secret = true) {value : String}
    (held : (t.write uuid entries).store.secret (some a.id) = some value) :
    arrived.rest.stamp ∈ (t.write uuid entries).storedFor a.id := by
  have ne := VscodeMacroStore.assignments_apart nodup t.store entries
  have undeleted : a.id ∉ t.store.vaultDeletes (t.store.assignments uuid entries).1 :=
    VscodeMacroStore.secret_undeleted ne row.mem (row.secret.trans isSecret)
  change _ ∈ ite _ _ _
  rw [if_neg undeleted]
  obtain ⟨carried, _, _⟩ | ⟨pinned, same, -, kept⟩ | ⟨_, _, absent⟩ :=
    saved_secret nodup sound arriving clean row isSecret
  · rw [if_pos (List.mem_map.mpr ⟨(a.id, a.record.text), VscodeMacroStore.mem_vaultStores.mpr
      ⟨a, row.mem, ⟨row.secret.trans isSecret, (row.unknown isSecret).trans carried⟩, rfl⟩, rfl⟩)]
    refine List.mem_map.mpr ⟨a.record, List.mem_filter.mpr ⟨List.mem_map_of_mem row.mem, ?_⟩, by rw [row.rest]⟩
    simp [row.secret, isSecret, row.id]
  · rw [if_neg (VscodeMacroStore.unknown_unstored ne row.mem ((row.unknown isSecret).trans pinned))]
    cases entered : arrived.rest.unread with
    | false => exact (pinned_alone clean row.came entered pinned).2.1 a.id same
    | true =>
      obtain ⟨_, _, pre, mem, unread, same_id, stamp⟩ :=
        arriving.unread arrived (List.mem_of_getElem? row.came) entered
      rw [← stamp]
      refine sound.owned pre mem (sound.blank pre mem unread) a.id (same_id.trans same) value ?_
      rw [same_id, same, ← kept, held]
  · exact absurd (absent.symm.trans held) (by simp)

end Clean

theorem assigned_valid (valid : ∀ n, uuid n ≠ "") {k : Nat} (row : Row uuid t entries k arrived a) :
    a.id ≠ "" := by
  obtain prior | ⟨n, _, _, same⟩ := row.source
  · exact (priorId_some.mp prior).2
  · exact same ▸ valid n

theorem saved_of_clean (nodup : Function.Injective uuid) (valid : ∀ n, uuid n ≠ "") (sound : t.Sound uuid)
    (arriving : t.Arriving uuid entries) (clean : ¬ t.Slip entries) : t.Saved uuid entries where
  ids := by
    refine ⟨(t.store.assignments uuid entries).1.map Assignment.id,
      VscodeMacroStore.assignments_apart nodup t.store entries, fun empty => ?_, ?_⟩
    · obtain ⟨a, mem, same⟩ := List.mem_map.mp empty
      obtain ⟨k, arrived, row⟩ := row_of_mem mem
      exact assigned_valid valid row same
    · change ((t.store.assignments uuid entries).1.map fun a =>
        some (VscodeMacroStore.onDisk a).toEntry).map (Option.map MacroEntry.id) = _
      simp only [List.map_map]
      refine List.map_congr_left fun a mem => ?_
      obtain ⟨k, arrived, row⟩ := row_of_mem mem
      simp only [Function.comp_apply, VscodeMacroStore.onDisk, TerminalMacro.toEntry]
      split <;> simp [row.id]
  value := by
    intro saved mem isSecret entered
    obtain ⟨k, at_k⟩ := List.mem_iff_getElem?.mp mem
    obtain ⟨arrived, a, row, rfl⟩ := row_of_resolved at_k
    rw [row.secret] at isSecret
    rw [row.rest] at entered
    rw [row.id, row.text]
    obtain ⟨_, _, stored⟩ | ⟨pinned, same, _, kept⟩ | ⟨unread, _⟩ :=
      saved_secret nodup sound arriving clean row isSecret
    · exact stored
    · rw [kept, ← same, (pinned_alone clean row.came entered pinned).1, (cannotCarrySecret_iff.mp pinned).2.1]
    · exact absurd (entered.symm.trans unread) (by simp)
  first := by
    intro k arrived saved came at_k unread first
    obtain ⟨_, a, row, rfl⟩ := row_of_resolved at_k
    obtain rfl := Option.mem_unique row.came came
    have isSecret := (arriving.unread _ (List.mem_of_getElem? came) unread).1
    rw [row.id]
    obtain ⟨_, entered, _⟩ | ⟨_, same, _, kept⟩ | ⟨_, later, _⟩ :=
      saved_secret nodup sound arriving clean row isSecret
    · exact absurd (entered.symm.trans unread) (by simp)
    · exact ⟨same.symm, same ▸ kept⟩
    · exact absurd first later
  others := by
    intro k arrived saved came at_k unread later
    obtain ⟨_, a, row, rfl⟩ := row_of_resolved at_k
    obtain rfl := Option.mem_unique row.came came
    have isSecret := (arriving.unread _ (List.mem_of_getElem? came) unread).1
    rw [row.id]
    obtain ⟨_, entered, _⟩ | ⟨_, _, first, _⟩ | ⟨_, _, absent⟩ :=
      saved_secret nodup sound arriving clean row isSecret
    · exact absurd (entered.symm.trans unread) (by simp)
    · exact absurd (first unread) later
    · exact absent
  owner := by
    intro saved mem isSecret id same value held
    obtain ⟨k, at_k⟩ := List.mem_iff_getElem?.mp mem
    obtain ⟨arrived, a, row, rfl⟩ := row_of_resolved at_k
    obtain rfl := Option.mem_unique row.id same
    rw [row.id] at held
    rw [row.rest]
    exact saved_owner nodup sound arriving clean row (row.secret.symm.trans isSecret) held
  undeleted := by
    intro saved mem isSecret id same
    obtain ⟨k, at_k⟩ := List.mem_iff_getElem?.mp mem
    obtain ⟨arrived, a, row, rfl⟩ := row_of_resolved at_k
    obtain rfl := Option.mem_unique row.id same
    exact VscodeMacroStore.secret_undeleted (VscodeMacroStore.assignments_apart nodup t.store entries) row.mem isSecret

theorem clean_of_saved (nodup : Function.Injective uuid) (sound : t.Sound uuid)
    (arriving : t.Arriving uuid entries) (saved : t.Saved uuid entries) : ¬ t.Slip entries := by
  rintro ⟨k, arrived, came, isSecret, blank, slip⟩
  obtain ⟨a, row⟩ := @row_of_came uuid t _ _ _ came
  have mem : a.record ∈ (t.write uuid entries).store.resolved := List.mem_of_getElem? row.resolved
  cases unread : arrived.rest.unread with
  | true =>
    rw [if_pos unread] at slip
    have stored := row.known nodup isSecret slip
    by_cases first : First entries k arrived.id
    · obtain ⟨-, kept⟩ := saved.first k arrived a.record came row.resolved unread first
      rw [row.id, stored] at kept
      obtain ⟨_, _, held, known, was_unread, own, _⟩ := arriving.unread arrived (List.mem_of_getElem? came) unread
      obtain ⟨id, unresolved, own_id⟩ | absent := sound.filed held known was_unread
      · obtain ⟨valid_id, same_id, ne⟩ := sound.valid held known
        obtain rfl := Option.mem_unique own_id same_id
        have pinned : t.store.cannotCarrySecret arrived = true :=
          cannotCarrySecret_iff.mpr ⟨isSecret, blank, id, unresolved, priorId_some.mpr ⟨own ▸ own_id, ne⟩⟩
        exact absurd (pinned.symm.trans slip) (by simp)
      · rw [own] at absent
        exact absurd (kept.trans absent) (by simp)
    · have none_left := saved.others k arrived a.record came row.resolved unread first
      rw [row.id] at none_left
      exact absurd (stored.symm.trans none_left) (by simp)
  | false =>
    rw [if_neg (by simp [unread])] at slip
    obtain ⟨pinned, shared⟩ := slip
    obtain ⟨id, _, prior⟩ := (cannotCarrySecret_iff.mp pinned).2.2
    have value := saved.value a.record mem (row.secret.trans isSecret) (row.rest ▸ unread)
    rw [row.id, row.text, blank] at value
    have keeps : a.id = id := by
      by_contra moved
      exact absurd ((row.displaced nodup sound prior pinned moved).symm.trans value) (by simp)
    have own := (priorId_some.mp prior).1
    have unchanged := row.untouched nodup pinned
    refine shared ⟨?_, ?_, ?_⟩
    · rw [own, ← keeps, ← unchanged, value]
    · intro other_id same
      obtain rfl := Option.mem_unique own same
      have owner := saved.owner a.record mem (row.secret.trans isSecret) a.id row.id "" (row.id ▸ value)
      have apart := VscodeMacroStore.assignments_apart nodup t.store entries
      change _ ∈ ite _ _ _ at owner
      rwa [if_neg (VscodeMacroStore.secret_undeleted apart row.mem (row.secret.trans isSecret)),
        if_neg (VscodeMacroStore.unknown_unstored apart row.mem ((row.unknown isSecret).trans pinned)),
        row.rest, keeps] at owner
    · intro j other at_j also same
      obtain ⟨b, second⟩ := @row_of_came uuid t _ _ _ at_j
      have other_secret := (cannotCarrySecret_iff.mp also).1
      have other_prior : other.priorId = some id := by
        rw [priorId_some, same]
        exact priorId_some.mp prior
      by_contra apart
      have moved : b.id ≠ id := fun kept => apart (row.position nodup second (kept.trans keeps.symm))
      have gone := second.displaced nodup sound other_prior also moved
      cases other_unread : other.rest.unread with
      | false =>
        have other_value := saved.value b.record (List.mem_of_getElem? second.resolved)
          (second.secret.trans other_secret) (second.rest ▸ other_unread)
        rw [second.id] at other_value
        exact absurd (gone.symm.trans other_value) (by simp)
      | true =>
        -- the first unread secret of this id must keep it, but it is taken
        obtain ⟨i, least, at_i, least_unread, least_id, least_first, _⟩ := exists_first at_j other_unread
        obtain ⟨c, third⟩ := @row_of_came uuid t _ _ _ at_i
        have kept := (saved.first i least c.record at_i third.resolved least_unread (least_id ▸ least_first)).1
        rw [third.id, least_id, same, own, Option.some.injEq] at kept
        obtain rfl := row.position nodup third (kept.trans keeps.symm)
        obtain rfl := Option.mem_unique at_i came
        exact absurd (unread.symm.trans least_unread) (by simp)

theorem write_sound (nodup : Function.Injective uuid) (valid : ∀ n, uuid n ≠ "") (sound : t.Sound uuid)
    (arriving : t.Arriving uuid entries) (clean : ¬ t.Slip entries) : (t.write uuid entries).Sound uuid := by
  have saved := saved_of_clean nodup valid sound arriving clean
  refine ⟨?_, saved.value, ?_, ?_, saved.owner, ?_, ?_⟩
  · intro held mem
    obtain ⟨k, at_k⟩ := List.mem_iff_getElem?.mp mem
    obtain ⟨arrived, a, row, rfl⟩ := row_of_resolved at_k
    exact ⟨a.id, row.id, assigned_valid valid row⟩
  · intro held mem unread
    obtain ⟨k, at_k⟩ := List.mem_iff_getElem?.mp mem
    obtain ⟨arrived, a, row, rfl⟩ := row_of_resolved at_k
    rw [row.secret]
    exact (arriving.unread arrived (List.mem_of_getElem? row.came) (row.rest ▸ unread)).1
  · intro held mem unread
    obtain ⟨k, at_k⟩ := List.mem_iff_getElem?.mp mem
    obtain ⟨arrived, a, row, rfl⟩ := row_of_resolved at_k
    rw [row.rest] at unread
    have isSecret := (arriving.unread _ (List.mem_of_getElem? row.came) unread).1
    have apart := VscodeMacroStore.assignments_apart nodup t.store entries
    rw [row.id]
    obtain ⟨_, entered, _⟩ | ⟨pinned, same, _, _⟩ | ⟨_, _, absent⟩ :=
      saved_secret nodup sound arriving clean row isSecret
    · exact absurd (entered.symm.trans unread) (by simp)
    · obtain ⟨id, unresolved, prior⟩ := (cannotCarrySecret_iff.mp pinned).2.2
      obtain rfl := Option.some.inj ((priorId_some.mp prior).1.symm.trans same)
      refine .inl ⟨a.id, VscodeMacroStore.mem_write_unresolved.mpr ⟨⟨unresolved, ?_⟩, ?_⟩, rfl⟩
      · exact VscodeMacroStore.unknown_unstored apart row.mem ((row.unknown isSecret).trans pinned)
      · exact VscodeMacroStore.secret_undeleted apart row.mem (row.secret.trans isSecret)
    · exact .inr absent
  · -- an id that is still unresolved was not deleted, so a saved macro has it
    intro id unresolved
    obtain ⟨⟨pre, _⟩, undeleted⟩ := VscodeMacroStore.mem_write_unresolved.mp unresolved
    obtain ⟨held, mem, own⟩ := sound.held id pre
    by_contra unheld
    refine undeleted (VscodeMacroStore.mem_vaultDeletes.mpr
      (.inr ⟨⟨held, mem, own⟩, ?_, fun used => unheld ?_⟩))
    · obtain ⟨other, same, ne⟩ := sound.valid held mem
      exact Option.mem_unique same own ▸ ne
    · obtain ⟨a, left, rfl⟩ := List.mem_map.mp used
      obtain ⟨k, arrived, row⟩ := row_of_mem left
      exact ⟨a.record, List.mem_map_of_mem left, row.id⟩
  · intro n later
    have since : t.store.drawn ≤ n := Nat.le_trans VscodeMacroStore.drawn_le_write later
    have unused : uuid n ∉ (t.store.assignments uuid entries).1.map Assignment.id := by
      intro used
      obtain ⟨a, left, same⟩ := List.mem_map.mp used
      obtain ⟨k, arrived, row⟩ := row_of_mem left
      obtain prior | ⟨m, _, pre, drawn⟩ := row.source
      · refine arriving.undrawn arrived (List.mem_of_getElem? row.came) n since ?_
        rw [(priorId_some.mp prior).1, same]
      · have := nodup (drawn.symm.trans same)
        change (t.store.write uuid entries).drawn ≤ n at later
        omega
    refine ⟨?_, VscodeMacroStore.write_absent (sound.undrawn n since).2 unused⟩
    intro held mem same
    obtain ⟨k, at_k⟩ := List.mem_iff_getElem?.mp mem
    obtain ⟨arrived, a, row, rfl⟩ := row_of_resolved at_k
    rw [row.id, Option.some.injEq] at same
    exact unused (same ▸ List.mem_map_of_mem row.mem)

end NexTerminal.Macros.Tracked
