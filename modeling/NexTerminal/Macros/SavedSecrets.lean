import NexTerminal.Library.SeqMap
import NexTerminal.Macros.MacroIds

namespace NexTerminal.Macros

open Library

def secretPrefix : String := "macro-secret-text-"

def macroSecretKey (id : String) : String := secretPrefix ++ id

/-- The macro id that a key of the vault is for, as `readVaultSecretIds` finds it. -/
def vaultSecretId (key : String) : Option String :=
  if secretPrefix.toList <+: key.toList then
    (some (String.ofList (key.toList.drop secretPrefix.length))).filter (· ≠ "")
  else none

structure VscodeMacroStore (Rest : Type) where
  /-- The value of `nexus.macros` in the global state. -/
  stored : List (Option (MacroEntry Rest))
  secrets : SeqMap String String
  resolved : List (TerminalMacro Rest) := []
  unresolvedSecretIds : SeqSet String := .empty
  drawn : Nat := 0

namespace VscodeMacroStore

variable {Rest : Type}

def secret (store : VscodeMacroStore Rest) (id : Option String) : Option String :=
  id.bind fun id => store.secrets.get? (macroSecretKey id)

/-- The id of a loaded record, with the number of UUIDs drawn so far. -/
def loadedId (uuid : Nat → String) (drawn : Nat) (record : TerminalMacro Rest) : String × Nat :=
  match record.priorId with
  | some id => (id, drawn)
  | none => (uuid drawn, drawn + 1)

/-- One turn of the loop of `reloadFromState`. The keyring may fail to answer. -/
def reloadEntry (uuid : Nat → String) (store : VscodeMacroStore Rest)
    (entry : Option (MacroEntry Rest) × Bool) : VscodeMacroStore Rest :=
  match usableMacro entry.1 with
  | none => store
  | some record =>
    let (id, drawn) := loadedId uuid store.drawn record
    if record.secret then
      let vaulted := if entry.2 then store.secrets.get? (macroSecretKey id) else none
      { store with
        resolved := store.resolved ++ [{ record with id := some id, text := vaulted.getD "" }]
        unresolvedSecretIds :=
          if vaulted.isNone then store.unresolvedSecretIds.add id else store.unresolvedSecretIds
        drawn }
    else { store with resolved := store.resolved ++ [{ record with id := some id }], drawn }

/-- `reloadFromState` on a persisted list, each record with whether its secret can be read. -/
def reloadFromState (uuid : Nat → String) (secrets : SeqMap String String)
    (raw : List (Option (MacroEntry Rest) × Bool)) : VscodeMacroStore Rest :=
  raw.foldl (reloadEntry uuid) { stored := raw.map Prod.fst, secrets }

def cannotCarrySecret (store : VscodeMacroStore Rest) (entry : TerminalMacro Rest) : Bool :=
  entry.secret && entry.text = "" && entry.priorId.any fun id => decide (id ∈ store.unresolvedSecretIds)

def assignments (uuid : Nat → String) (store : VscodeMacroStore Rest) (macros : List (Option (MacroEntry Rest))) :
    List (Assignment Rest) × Nat :=
  assignMacroIds uuid store.drawn store.cannotCarrySecret (macros.filterMap usableMacro)

/-- Whether a save has no value for a secret: its read failed and nothing was entered. -/
def unknown (store : VscodeMacroStore Rest) (assigned : Assignment Rest) : Bool :=
  assigned.record.text = "" && assigned.priorId.any fun id => decide (id ∈ store.unresolvedSecretIds)

def vaultStores (store : VscodeMacroStore Rest) (assigned : List (Assignment Rest)) : List (String × String) :=
  (assigned.filter fun a => a.record.secret && !store.unknown a).map fun a => (a.id, a.record.text)

def vaultDeletes (store : VscodeMacroStore Rest) (assigned : List (Assignment Rest)) : List String :=
  ((assigned.filter fun a => !a.record.secret).map Assignment.id) ++
    (SeqSet.ofList (store.resolved.filterMap TerminalMacro.id)).items.filter fun id =>
      id ≠ "" ∧ id ∉ assigned.map Assignment.id

def onDisk (assigned : Assignment Rest) : TerminalMacro Rest :=
  if assigned.record.secret then { assigned.record with text := "" } else assigned.record

/-- `write`: stores, then the list, then deletes. -/
def write (uuid : Nat → String) (store : VscodeMacroStore Rest) (macros : List (Option (MacroEntry Rest))) :
    VscodeMacroStore Rest :=
  let (assigned, drawn) := store.assignments uuid macros
  let vaultStores := store.vaultStores assigned
  let vaultDeletes := store.vaultDeletes assigned
  { stored := assigned.map fun a => some (onDisk a).toEntry
    secrets := vaultDeletes.foldl (fun secrets id => secrets.erase (macroSecretKey id))
      (vaultStores.foldl (fun secrets entry => secrets.set (macroSecretKey entry.1) entry.2) store.secrets)
    resolved := assigned.map Assignment.record
    unresolvedSecretIds := vaultDeletes.foldl SeqSet.erase
      ((vaultStores.map Prod.fst).foldl SeqSet.erase store.unresolvedSecretIds)
    drawn }

def save (uuid : Nat → String) (store : VscodeMacroStore Rest) (macros : List (Option (MacroEntry Rest))) :
    VscodeMacroStore Rest := store.write uuid macros

def stripIds (macros : List (Option (MacroEntry Rest))) : List (Option (MacroEntry Rest)) :=
  macros.map fun entry => entry.map fun held => { held with id := none }

def replaceAll (uuid : Nat → String) (store : VscodeMacroStore Rest) (macros : List (Option (MacroEntry Rest))) :
    VscodeMacroStore Rest := store.write uuid (stripIds macros)

/-- `clearAll`. The host may fail to list the keys of the vault. -/
def clearAll (store : VscodeMacroStore Rest) (listed : Bool) : VscodeMacroStore Rest :=
  let ids := store.resolved.filterMap fun entry => entry.id.filter (· ≠ "")
  let enumeratedIds := if listed then store.secrets.keys.filterMap vaultSecretId else []
  { store with
    stored := []
    resolved := []
    unresolvedSecretIds := .empty
    secrets := (SeqSet.ofList (ids ++ enumeratedIds)).items.foldl
      (fun secrets id => secrets.erase (macroSecretKey id)) store.secrets }

end VscodeMacroStore

theorem macroSecretKey_injective : Function.Injective macroSecretKey := by
  intro first second same
  have lists := congrArg String.toList same
  simp only [macroSecretKey, String.toList_append, List.append_cancel_left_eq] at lists
  exact String.ext lists

namespace VscodeMacroStore

variable {Rest : Type} {uuid : Nat → String} {store : VscodeMacroStore Rest}
  {macros : List (Option (MacroEntry Rest))}

theorem drawn_le_write : store.drawn ≤ (store.write uuid macros).drawn := (fillIds_getElem? uuid _ store.drawn _).1

/-- No two macros of a save get one id. -/
theorem assignments_apart (nodup : Function.Injective uuid) (store : VscodeMacroStore Rest)
    (macros : List (Option (MacroEntry Rest))) : ((store.assignments uuid macros).1.map Assignment.id).Nodup :=
  assignMacroIds_nodup nodup store.drawn store.cannotCarrySecret (macros.filterMap usableMacro)

theorem mem_vaultStores {assigned : List (Assignment Rest)} {entry : String × String} :
    entry ∈ store.vaultStores assigned ↔
      ∃ a ∈ assigned, (a.record.secret = true ∧ store.unknown a = false) ∧ (a.id, a.record.text) = entry := by
  simp [vaultStores, and_assoc]

variable {id : String}

theorem mem_vaultDeletes {assigned : List (Assignment Rest)} : id ∈ store.vaultDeletes assigned ↔
      (∃ a ∈ assigned, a.record.secret = false ∧ a.id = id) ∨
        (∃ entry ∈ store.resolved, entry.id = some id) ∧ id ≠ "" ∧ id ∉ assigned.map Assignment.id := by
  simp [vaultDeletes, and_assoc,
    SeqSet.mem_items]

variable {assigned : List (Assignment Rest)} (apart : (assigned.map Assignment.id).Nodup) {a : Assignment Rest}
include apart

theorem eq_of_id {b : Assignment Rest} (one : a ∈ assigned) (two : b ∈ assigned) (same : a.id = b.id) : a = b :=
  List.inj_on_of_nodup_map apart one two same

theorem secret_undeleted (mem : a ∈ assigned) (isSecret : a.record.secret = true) :
    a.id ∉ store.vaultDeletes assigned := by
  rw [mem_vaultDeletes]
  rintro (⟨b, other, plain, same⟩ | ⟨_, _, absent⟩)
  · obtain rfl := eq_of_id apart other mem same
    exact absurd (isSecret.symm.trans plain) (by simp)
  · exact absent (List.mem_map_of_mem mem)

theorem unknown_unstored (mem : a ∈ assigned) (unknown : store.unknown a = true) :
    a.id ∉ (store.vaultStores assigned).map Prod.fst := by
  rw [List.mem_map]
  rintro ⟨entry, hit, same⟩
  obtain ⟨b, other, ⟨_, known⟩, rfl⟩ := mem_vaultStores.mp hit
  obtain rfl := eq_of_id apart other mem same
  exact absurd (unknown.symm.trans known) (by simp)

theorem stored_apart : ((store.vaultStores assigned).map fun entry => macroSecretKey entry.1).Nodup := by
  have ids : ((store.vaultStores assigned).map Prod.fst).Nodup := by
    rw [vaultStores, List.map_map]
    exact (List.Sublist.map _ List.filter_sublist).nodup apart
  have keys := ids.map macroSecretKey_injective
  rwa [List.map_map] at keys

omit apart

theorem write_secret (id : String) :
    (store.write uuid macros).secret (some id) =
      if id ∈ store.vaultDeletes (store.assignments uuid macros).1 then none
      else ((store.vaultStores (store.assignments uuid macros).1).foldl
        (fun secrets entry => secrets.set (macroSecretKey entry.1) entry.2) store.secrets).get?
          (macroSecretKey id) := by
  refine (SeqMap.get?_foldl_erase macroSecretKey _
    (store.vaultDeletes (store.assignments uuid macros).1) _).trans ?_
  simp only [List.mem_map, macroSecretKey_injective.eq_iff, exists_eq_right]
  rfl

theorem write_untouched (undeleted : id ∉ store.vaultDeletes (store.assignments uuid macros).1)
    (unstored : id ∉ (store.vaultStores (store.assignments uuid macros).1).map Prod.fst) :
    (store.write uuid macros).secret (some id) = store.secret (some id) := by
  rw [write_secret, if_neg undeleted, SeqMap.get?_foldl_set_other]
  · rfl
  · simp only [List.mem_map, macroSecretKey_injective.eq_iff] at unstored ⊢
    exact unstored

theorem mem_write_unresolved : id ∈ (store.write uuid macros).unresolvedSecretIds ↔
      (id ∈ store.unresolvedSecretIds ∧
        id ∉ (store.vaultStores (store.assignments uuid macros).1).map Prod.fst) ∧
        id ∉ store.vaultDeletes (store.assignments uuid macros).1 := by
  exact SeqSet.mem_foldl_erase.trans (and_congr_left' SeqSet.mem_foldl_erase)

theorem write_absent (absent : store.secret (some id) = none)
    (unused : id ∉ (store.assignments uuid macros).1.map Assignment.id) :
    (store.write uuid macros).secret (some id) = none := by
  by_cases deleted : id ∈ store.vaultDeletes (store.assignments uuid macros).1
  · rw [write_secret, if_pos deleted]
  · rw [write_untouched deleted, absent]
    rw [List.mem_map]
    rintro ⟨entry, hit, rfl⟩
    obtain ⟨a, mem, _, rfl⟩ := mem_vaultStores.mp hit
    exact unused (List.mem_map_of_mem mem)

variable (nodup : Function.Injective uuid) {a : Assignment Rest} (mem : a ∈ (store.assignments uuid macros).1)
  (isSecret : a.record.secret = true)
include nodup mem isSecret

theorem write_known (known : store.unknown a = false) :
    (store.write uuid macros).secret (some a.id) = some a.record.text := by
  have apart := assignments_apart nodup store macros
  rw [write_secret, if_neg (secret_undeleted apart mem isSecret)]
  exact SeqMap.get?_foldl_set _ (stored_apart apart) (mem_vaultStores.mpr ⟨a, mem, ⟨isSecret, known⟩, rfl⟩)

theorem write_unknown (unknown : store.unknown a = true) :
    (store.write uuid macros).secret (some a.id) = store.secret (some a.id) :=
  have apart := assignments_apart nodup store macros
  write_untouched (secret_undeleted apart mem isSecret) (unknown_unstored apart mem unknown)

end VscodeMacroStore

/-- What follows a macro through a run, among the fields that the store copies. -/
structure Standing where
  stamp : Nat
  /-- Its value could not be read when it was loaded, and none was entered since. -/
  unread : Bool

structure Tracked where
  store : VscodeMacroStore Standing
  storedFor : String → List Nat
  nextStamp : Nat

/-- A record of a list derived from `getAll`. -/
inductive Item
  /-- A held macro, edited or not, wherever it now stands. It keeps its id. -/
  | kept (origin : Nat) (name text : Option String) (secret : Bool)
  | added (entry : Option (MacroEntry Unit))

inductive Change
  | save (items : List Item)
  | replaceAll (macros : List (Option (MacroEntry Unit)))
  | clearAll (listed : Bool)

namespace Tracked

/-- The record of the persisted list at a position, with whether its secret can be read. -/
def loadedEntry (secrets : SeqMap String String) (stamp : Nat) (raw : Option (MacroEntry Unit) × Bool) :
    Option (MacroEntry Standing) × Bool :=
  (raw.1.map fun entry =>
    let read := raw.2 && ((entry.id.filter (· ≠ "")).bind fun id => secrets.get? (macroSecretKey id)).isSome
    { entry with rest := { stamp, unread := entry.secret && !read } }, raw.2)

def loadedStore (uuid : Nat → String) (secrets : SeqMap String String)
    (raw : List (Option (MacroEntry Unit) × Bool)) : VscodeMacroStore Standing :=
  .reloadFromState uuid secrets (raw.mapIdx (loadedEntry secrets))

def stampsAt (macros : List (TerminalMacro Standing)) (id : String) : List Nat :=
  (macros.filter fun entry => entry.secret && entry.id = some id).map fun entry => entry.rest.stamp

/-- The state after a load. An entry then belongs to every secret macro under its id. -/
def load (uuid : Nat → String) (secrets : SeqMap String String)
    (raw : List (Option (MacroEntry Unit) × Bool)) : Tracked :=
  { store := loadedStore uuid secrets raw
    storedFor := stampsAt (loadedStore uuid secrets raw).resolved
    nextStamp := raw.length }

def addedEntry (t : Tracked) (position : Nat) (entry : Option (MacroEntry Unit)) : Option (MacroEntry Standing) :=
  entry.map fun held => { held with rest := { stamp := t.nextStamp + position, unread := false } }

def savedEntry (t : Tracked) (position : Nat) : Item → Option (MacroEntry Standing)
  | .kept origin name text secret => t.store.resolved[origin]?.map fun held =>
    { id := held.id, name, text, secret
      rest := { held.rest with unread := held.rest.unread && secret && text = some "" } }
  | .added entry => t.addedEntry position entry

/-- The list that a change hands to `write`. -/
def entries (t : Tracked) : Change → List (Option (MacroEntry Standing))
  | .save items => items.mapIdx t.savedEntry
  | .replaceAll macros => VscodeMacroStore.stripIds (macros.mapIdx t.addedEntry)
  | .clearAll _ => []

def write (uuid : Nat → String) (t : Tracked) (entries : List (Option (MacroEntry Standing))) : Tracked :=
  let assigned := (t.store.assignments uuid entries).1
  { store := t.store.write uuid entries
    storedFor := fun id =>
      if id ∈ t.store.vaultDeletes assigned then []
      else if id ∈ (t.store.vaultStores assigned).map Prod.fst then stampsAt (assigned.map Assignment.record) id
      else t.storedFor id
    nextStamp := t.nextStamp + entries.length }

def step (uuid : Nat → String) (t : Tracked) : Change → Tracked
  | .clearAll listed => { t with store := t.store.clearAll listed }
  | change => t.write uuid (t.entries change)

def incoming (entries : List (Option (MacroEntry Standing))) : List (TerminalMacro Standing) :=
  entries.filterMap usableMacro

/-- An unread secret that no earlier one of the list shares its id with. -/
def First (entries : List (Option (MacroEntry Standing))) (k : Nat) (id : Option String) : Prop :=
  ∀ (j : Nat) (other : TerminalMacro Standing), j < k → (incoming entries)[j]? = some other →
    other.rest.unread = true → other.id ≠ id

structure Saved (uuid : Nat → String) (t : Tracked) (entries : List (Option (MacroEntry Standing))) : Prop where
  ids : ∃ ids : List String, ids.Nodup ∧ "" ∉ ids ∧
    (t.write uuid entries).store.stored.map (Option.map MacroEntry.id) = ids.map fun id => some (some id)
  value : ∀ saved ∈ (t.write uuid entries).store.resolved, saved.secret = true → saved.rest.unread = false →
    (t.write uuid entries).store.secret saved.id = some saved.text
  first : ∀ (k : Nat) (arrived saved : TerminalMacro Standing), (incoming entries)[k]? = some arrived →
    (t.write uuid entries).store.resolved[k]? = some saved → arrived.rest.unread = true →
      First entries k arrived.id →
    saved.id = arrived.id ∧ (t.write uuid entries).store.secret saved.id = t.store.secret arrived.id
  others : ∀ (k : Nat) (arrived saved : TerminalMacro Standing), (incoming entries)[k]? = some arrived →
    (t.write uuid entries).store.resolved[k]? = some saved → arrived.rest.unread = true →
    ¬ First entries k arrived.id → (t.write uuid entries).store.secret saved.id = none
  owner : ∀ saved ∈ (t.write uuid entries).store.resolved, saved.secret = true → ∀ id, saved.id = some id →
    ∀ value, (t.write uuid entries).store.secret saved.id = some value →
      saved.rest.stamp ∈ (t.write uuid entries).storedFor id
  undeleted : ∀ saved ∈ (t.write uuid entries).store.resolved, saved.secret = true →
    ∀ id, saved.id = some id → id ∉ t.store.vaultDeletes (t.store.assignments uuid entries).1

/-- A record of a list that a save takes for an unread secret, or fails to take for one. -/
def SlipAt (t : Tracked) (entries : List (Option (MacroEntry Standing))) (k : Nat)
    (arrived : TerminalMacro Standing) : Prop :=
  arrived.secret = true ∧ arrived.text = "" ∧
    if arrived.rest.unread then t.store.cannotCarrySecret arrived = false
    else t.store.cannotCarrySecret arrived = true ∧
      ¬ (t.store.secret arrived.id = some "" ∧
        (∀ id, arrived.id = some id → arrived.rest.stamp ∈ t.storedFor id) ∧
        ∀ (j : Nat) (other : TerminalMacro Standing), (incoming entries)[j]? = some other →
          t.store.cannotCarrySecret other = true → other.id = arrived.id → j = k)

def Slip (t : Tracked) (entries : List (Option (MacroEntry Standing))) : Prop :=
  ∃ (k : Nat) (arrived : TerminalMacro Standing), (incoming entries)[k]? = some arrived ∧ t.SlipAt entries k arrived

/-- What a save may count on: an unread secret comes from a held one, and no id is a UUID
that is still to be drawn. -/
structure Arriving (uuid : Nat → String) (t : Tracked) (entries : List (Option (MacroEntry Standing))) : Prop where
  unread : ∀ arrived ∈ incoming entries, arrived.rest.unread = true → arrived.secret = true ∧
    arrived.text = "" ∧
    ∃ held ∈ t.store.resolved, held.rest.unread = true ∧ held.id = arrived.id ∧
      held.rest.stamp = arrived.rest.stamp
  undrawn : ∀ arrived ∈ incoming entries, ∀ n, t.store.drawn ≤ n → arrived.id ≠ some (uuid n)

structure Sound (uuid : Nat → String) (t : Tracked) : Prop where
  valid : ∀ held ∈ t.store.resolved, ∃ id, held.id = some id ∧ id ≠ ""
  read : ∀ held ∈ t.store.resolved, held.secret = true → held.rest.unread = false →
    t.store.secret held.id = some held.text
  blank : ∀ held ∈ t.store.resolved, held.rest.unread = true → held.secret = true
  filed : ∀ held ∈ t.store.resolved, held.rest.unread = true →
    (∃ id ∈ t.store.unresolvedSecretIds, held.id = some id) ∨ t.store.secret held.id = none
  owned : ∀ held ∈ t.store.resolved, held.secret = true → ∀ id, held.id = some id →
    ∀ value, t.store.secret held.id = some value → held.rest.stamp ∈ t.storedFor id
  held : ∀ id ∈ t.store.unresolvedSecretIds, ∃ held ∈ t.store.resolved, held.id = some id
  undrawn : ∀ n, t.store.drawn ≤ n →
    (∀ held ∈ t.store.resolved, held.id ≠ some (uuid n)) ∧ t.store.secret (some (uuid n)) = none

end Tracked

end NexTerminal.Macros
