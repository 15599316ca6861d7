import NexTerminal.Macros.SecretInvariant

namespace NexTerminal.Macros.Tracked

open Library

/-- What `randomUUID` gives beside what is stored already: valid ids that differ from each
other and from every id in use. -/
structure Unused (uuid : Nat → String) (secrets : SeqMap String String)
    (raw : List (Option (MacroEntry Unit) × Bool)) : Prop where
  distinct : Function.Injective uuid
  valid : ∀ n, uuid n ≠ ""
  unstored : ∀ n, secrets.get? (macroSecretKey (uuid n)) = none
  unnamed : ∀ n, ∀ entry ∈ raw, ∀ held, entry.1 = some held → held.id ≠ some (uuid n)

def Legal (uuid : Nat → String) (t : Tracked) : Change → Prop
  | .save items => ∀ entry, Item.added (some entry) ∈ items → ∀ n, t.store.drawn ≤ n →
    entry.id ≠ some (uuid n)
  | _ => True

def LegalRun (uuid : Nat → String) : Tracked → List Change → Prop
  | _, [] => True
  | t, change :: rest => t.Legal uuid change ∧ (t.step uuid change).LegalRun uuid rest

def Meets (uuid : Nat → String) (t : Tracked) : Change → Prop
  | .clearAll _ => True
  | change => t.Saved uuid (t.entries change)

def Correct (uuid : Nat → String) : Tracked → List Change → Prop
  | _, [] => True
  | t, change :: rest => t.Meets uuid change ∧ (t.step uuid change).Correct uuid rest

def NoSlip (uuid : Nat → String) : Tracked → List Change → Prop
  | _, [] => True
  | t, change :: rest => ¬ t.Slip (t.entries change) ∧ (t.step uuid change).NoSlip uuid rest

variable {uuid : Nat → String} {t : Tracked} {entries : List (Option (MacroEntry Standing))}

theorem mem_incoming {arrived : TerminalMacro Standing}
    (mem : arrived ∈ incoming entries) : some arrived.toEntry ∈ entries := by
  obtain ⟨entry, inside, usable⟩ := List.mem_filterMap.mp mem
  cases entry with
  | none => simp [usableMacro] at usable
  | some held =>
    obtain ⟨id, _ | name, _ | text, isSecret, rest⟩ := held
    · simp [usableMacro] at usable
    · simp [usableMacro] at usable
    · simp [usableMacro] at usable
    · simp only [usableMacro, Option.bind_eq_bind, Option.bind_some, Option.pure_def, Option.some.injEq] at usable
      subst usable
      exact inside

theorem arriving_save (sound : t.Sound uuid) {items : List Item} (legal : t.Legal uuid (.save items)) :
    t.Arriving uuid (t.entries (.save items)) := by
  have source (arrived : TerminalMacro Standing) (mem : arrived ∈ incoming (t.entries (.save items))) :
      ∃ k item, item ∈ items ∧ t.savedEntry k item = some arrived.toEntry := by
    obtain ⟨k, inside, same⟩ := List.mem_mapIdx.mp (mem_incoming mem)
    exact ⟨k, items[k], List.getElem_mem inside, same⟩
  refine ⟨fun arrived mem unread => ?_, fun arrived mem n later => ?_⟩
  · obtain ⟨k, _ | _, _, same⟩ := source arrived mem
    · obtain ⟨held, hit, entry⟩ := Option.map_eq_some_iff.mp same
      simp only [TerminalMacro.toEntry, MacroEntry.mk.injEq] at entry
      obtain ⟨own, -, text, isSecret, rest⟩ := entry
      rw [← rest] at unread
      simp only [Bool.and_eq_true, decide_eq_true_eq] at unread
      refine ⟨isSecret ▸ unread.1.2, ?_, held, List.mem_of_getElem? hit, unread.1.1, own, by rw [← rest]⟩
      exact Option.mem_unique text unread.2
    · obtain ⟨held, _, entry⟩ := Option.map_eq_some_iff.mp same
      simp only [TerminalMacro.toEntry, MacroEntry.mk.injEq] at entry
      rw [← entry.2.2.2.2] at unread
      exact absurd unread (by simp)
  · obtain ⟨k, _ | _, inside, same⟩ := source arrived mem
    · obtain ⟨held, hit, entry⟩ := Option.map_eq_some_iff.mp same
      simp only [TerminalMacro.toEntry, MacroEntry.mk.injEq] at entry
      rw [← entry.1]
      exact (sound.undrawn n later).1 held (List.mem_of_getElem? hit)
    · obtain ⟨held, rfl, entry⟩ := Option.map_eq_some_iff.mp same
      simp only [TerminalMacro.toEntry, MacroEntry.mk.injEq] at entry
      rw [← entry.1]
      exact legal held inside n later

theorem arriving_replaceAll (t : Tracked) (macros : List (Option (MacroEntry Unit))) :
    t.Arriving uuid (t.entries (.replaceAll macros)) := by
  have source (arrived : TerminalMacro Standing) (mem : arrived ∈ incoming (t.entries (.replaceAll macros))) :
      arrived.id = none ∧ arrived.rest.unread = false := by
    obtain ⟨entry, inside, same⟩ := List.mem_map.mp (mem_incoming mem)
    obtain ⟨k, _, rfl⟩ := List.mem_mapIdx.mp inside
    obtain ⟨held, added, stripped⟩ := Option.map_eq_some_iff.mp same
    obtain ⟨outer, _, rfl⟩ := Option.map_eq_some_iff.mp added
    simp only [TerminalMacro.toEntry, MacroEntry.mk.injEq] at stripped
    exact ⟨stripped.1.symm, by rw [← stripped.2.2.2.2]⟩
  refine ⟨fun arrived mem unread => ?_, fun arrived mem n _ => ?_⟩
  · exact absurd ((source arrived mem).2.symm.trans unread) (by simp)
  · rw [(source arrived mem).1]
    simp

theorem clearAll_sound (sound : t.Sound uuid) (mem : Bool) : (t.step uuid (.clearAll mem)).Sound uuid := by
  refine ⟨nofun, nofun, nofun, nofun, nofun, ?_, fun n later => ⟨nofun, ?_⟩⟩
  · intro id unresolved
    exact absurd unresolved (SeqSet.not_mem_empty id)
  · have absent : t.store.secrets.get? (macroSecretKey (uuid n)) = none := (sound.undrawn n later).2
    refine (SeqMap.get?_foldl_erase macroSecretKey _ _ _).trans ?_
    rw [absent, ite_self]

theorem mem_stampsAt {macros : List (TerminalMacro Standing)} {held : TerminalMacro Standing} {id : String}
    (mem : held ∈ macros) (isSecret : held.secret = true) (own : held.id = some id) :
    held.rest.stamp ∈ stampsAt macros id :=
  List.mem_map.mpr ⟨held, List.mem_filter.mpr ⟨mem, by simp [isSecret, own]⟩, rfl⟩

/-- A record as `loadedEntry` marks it. -/
def Marked (uuid : Nat → String) (secrets : SeqMap String String)
    (entry : Option (MacroEntry Standing) × Bool) : Prop :=
  ∀ held, entry.1 = some held → (∀ n, held.id ≠ some (uuid n)) ∧
    held.rest.unread = (held.secret && !(entry.2 &&
      ((held.id.filter (· ≠ "")).bind fun id => secrets.get? (macroSecretKey id)).isSome))

theorem priorId_eq_filter (entry : TerminalMacro Standing) : entry.priorId = entry.id.filter (· ≠ "") := by
  refine Option.ext fun id => ?_
  rw [priorId_some, Option.filter_eq_some_iff, decide_eq_true_eq]

theorem mem_noted {set : SeqSet String} {id other : String} {missing : Bool} :
    other ∈ (if missing then set.add id else set) ↔ other ∈ set ∨ missing = true ∧ other = id := by
  cases missing <;> simp

def loading (store : VscodeMacroStore Standing) (nextStamp : Nat) : Tracked :=
  { store, storedFor := stampsAt store.resolved, nextStamp }

variable {store : VscodeMacroStore Standing}

theorem loading_adds {nextStamp drawn : Nat}
    {unresolvedSecretIds : SeqSet String} (sound : (loading store nextStamp).Sound uuid)
    {added : TerminalMacro Standing} {id : String} (own : added.id = some id) (ne : id ≠ "")
    (read : added.secret = true → added.rest.unread = false → store.secret (some id) = some added.text)
    (blank : added.rest.unread = true → added.secret = true ∧ id ∈ unresolvedSecretIds)
    (more : ∀ other ∈ store.unresolvedSecretIds, other ∈ unresolvedSecretIds)
    (few : ∀ other ∈ unresolvedSecretIds, other ∈ store.unresolvedSecretIds ∨ other = id)
    (since : store.drawn ≤ drawn) (drawn_id : ∀ n, drawn ≤ n → id ≠ uuid n) :
    (loading
      { store with resolved := store.resolved ++ [added], unresolvedSecretIds, drawn } nextStamp).Sound uuid where
  valid := by
    intro held mem
    obtain pre | new := List.mem_append.mp mem
    · exact sound.valid held pre
    · obtain rfl := List.mem_singleton.mp new
      exact ⟨id, own, ne⟩
  read := by
    intro held mem isSecret entered
    obtain pre | new := List.mem_append.mp mem
    · exact sound.read held pre isSecret entered
    · obtain rfl := List.mem_singleton.mp new
      rw [own]
      exact read isSecret entered
  blank := by
    intro held mem unread
    obtain pre | new := List.mem_append.mp mem
    · exact sound.blank held pre unread
    · obtain rfl := List.mem_singleton.mp new
      exact (blank unread).1
  filed := by
    intro held mem unread
    obtain pre | new := List.mem_append.mp mem
    · obtain ⟨other, unresolved, same⟩ | absent := sound.filed held pre unread
      · exact .inl ⟨other, more other unresolved, same⟩
      · exact .inr absent
    · obtain rfl := List.mem_singleton.mp new
      exact .inl ⟨id, (blank unread).2, own⟩
  owned := fun held mem isSecret other same _ _ => mem_stampsAt mem isSecret same
  held := by
    intro other unresolved
    obtain pre | rfl := few other unresolved
    · obtain ⟨held, mem, same⟩ := sound.held other pre
      exact ⟨held, List.mem_append_left _ mem, same⟩
    · exact ⟨added, List.mem_append_right _ List.mem_cons_self, own⟩
  undrawn := by
    intro n later
    obtain ⟨unheld, absent⟩ := sound.undrawn n (Nat.le_trans since later)
    refine ⟨fun held mem => ?_, absent⟩
    obtain pre | new := List.mem_append.mp mem
    · exact unheld held pre
    · obtain rfl := List.mem_singleton.mp new
      rw [own, ne_eq, Option.some.injEq]
      exact drawn_id n later

variable {raw : List (Option (MacroEntry Unit) × Bool)} {secrets : SeqMap String String}

theorem reloadEntry_sound
    (unused : Unused uuid secrets raw) {nextStamp : Nat}
    (same : store.secrets = secrets) (sound : (loading store nextStamp).Sound uuid)
    {entry : Option (MacroEntry Standing) × Bool} (marked : Marked uuid secrets entry) :
    (store.reloadEntry uuid entry).secrets = secrets ∧
      (loading (store.reloadEntry uuid entry) nextStamp).Sound uuid := by
  subst same
  unfold VscodeMacroStore.reloadEntry
  split
  · exact ⟨rfl, sound⟩
  · rename_i record usable
    obtain ⟨unnamed, unread⟩ : (∀ n, record.id ≠ some (uuid n)) ∧ record.rest.unread = (record.secret &&
        !(entry.2 && (record.priorId.bind fun id => store.secrets.get? (macroSecretKey id)).isSome)) := by
      obtain ⟨value, answered⟩ := entry
      have inside := @mem_incoming [value] record (by simp [incoming, usable])
      rw [priorId_eq_filter]
      exact marked record.toEntry (List.mem_singleton.mp inside).symm
    simp only
    generalize chosen : VscodeMacroStore.loadedId uuid store.drawn record = choice
    unfold VscodeMacroStore.loadedId at chosen
    obtain ⟨ne, since, undrawn, looked⟩ : choice.1 ≠ "" ∧ store.drawn ≤ choice.2 ∧
        (∀ n, choice.2 ≤ n → choice.1 ≠ uuid n) ∧
        store.secrets.get? (macroSecretKey choice.1) = record.priorId.bind fun id =>
          store.secrets.get? (macroSecretKey id) := by
      cases prior : record.priorId with
      | some id =>
        rw [prior] at chosen
        obtain rfl : (id, store.drawn) = choice := chosen
        refine ⟨(priorId_some.mp prior).2, Nat.le_refl _, fun n _ clash => unnamed n ?_, rfl⟩
        rw [(priorId_some.mp prior).1]
        exact congrArg some clash
      | none =>
        rw [prior] at chosen
        obtain rfl : (uuid store.drawn, store.drawn + 1) = choice := chosen
        refine ⟨unused.valid _, Nat.le_succ _, fun n later clash => ?_, unused.unstored _⟩
        have := unused.distinct clash
        omega
    split
    · rename_i isSecret
      refine ⟨rfl, loading_adds sound rfl ne ?_ ?_ ?_ ?_ since undrawn⟩
      · intro _ entered
        rw [isSecret, Bool.true_and] at unread
        have read :
          (entry.2 && (record.priorId.bind fun id => store.secrets.get? (macroSecretKey id)).isSome) = true := by
          simpa using unread.symm.trans entered
        rw [Bool.and_eq_true, ← looked, Option.isSome_iff_exists] at read
        obtain ⟨answered, value, hit⟩ := read
        simp only [answered, hit]
        exact hit
      · intro was_unread
        refine ⟨isSecret, ?_⟩
        rw [isSecret, Bool.true_and] at unread
        have missing :
          (entry.2 && (record.priorId.bind fun id => store.secrets.get? (macroSecretKey id)).isSome) = false := by
          have negated := unread.symm.trans was_unread
          rwa [Bool.not_eq_eq_eq_not, Bool.not_true] at negated
        have nothing : (if entry.2 then store.secrets.get? (macroSecretKey choice.1) else none) = none := by
          rw [looked]
          cases answered : entry.2 with
          | false => rfl
          | true =>
            rw [answered, Bool.true_and] at missing
            simpa using missing
        exact mem_noted.mpr (.inr ⟨by rw [nothing, Option.isNone_none], rfl⟩)
      · exact fun other unresolved => mem_noted.mpr (.inl unresolved)
      · exact fun other unresolved => (mem_noted.mp unresolved).imp_right And.right
    · rename_i plain
      refine ⟨rfl, loading_adds sound rfl ne ?_ ?_ (fun _ => id) (fun _ => .inl) since undrawn⟩
      · exact fun isSecret => absurd isSecret plain
      · intro was_unread
        rw [was_unread] at unread
        simp [plain] at unread

theorem load_sound
    (unused : Unused uuid secrets raw) : (load uuid secrets raw).Sound uuid := by
  have reload (entries : List (Option (MacroEntry Standing) × Bool)) (store : VscodeMacroStore Standing)
      (marked : ∀ entry ∈ entries, Marked uuid secrets entry) (same : store.secrets = secrets)
      (sound : (loading store raw.length).Sound uuid) :
      (loading (entries.foldl (VscodeMacroStore.reloadEntry uuid) store) raw.length).Sound uuid := by
    induction entries generalizing store with
    | nil => exact sound
    | cons entry rest ih =>
      obtain ⟨still, next⟩ := reloadEntry_sound unused same sound (marked entry List.mem_cons_self)
      exact ih _ (fun other mem => marked other (List.mem_cons_of_mem _ mem)) still next
  refine reload (raw.mapIdx (loadedEntry secrets)) _ ?_ rfl ?_
  · intro entry mem held hit
    obtain ⟨k, inside, rfl⟩ := List.mem_mapIdx.mp mem
    obtain ⟨outer, at_k, rfl⟩ := Option.map_eq_some_iff.mp hit
    exact ⟨fun n => unused.unnamed n _ (List.getElem_mem inside) outer at_k, rfl⟩
  · refine ⟨nofun, nofun, nofun, nofun, nofun, fun id unresolved => ?_, fun n _ => ⟨nofun, unused.unstored n⟩⟩
    exact absurd unresolved (SeqSet.not_mem_empty id)

theorem step_meets (nodup : Function.Injective uuid) (valid : ∀ n, uuid n ≠ "") (sound : t.Sound uuid)
    {change : Change} (legal : t.Legal uuid change) :
    (t.Meets uuid change ↔ ¬ t.Slip (t.entries change)) ∧
      (¬ t.Slip (t.entries change) → (t.step uuid change).Sound uuid) := by
  have written (arriving : t.Arriving uuid (t.entries change)) :
      (t.Saved uuid (t.entries change) ↔ ¬ t.Slip (t.entries change)) ∧
        (¬ t.Slip (t.entries change) → (t.write uuid (t.entries change)).Sound uuid) :=
    ⟨⟨clean_of_saved nodup sound arriving, saved_of_clean nodup valid sound arriving⟩,
      write_sound nodup valid sound arriving⟩
  cases change with
  | save items => exact written (arriving_save sound legal)
  | replaceAll macros => exact written (arriving_replaceAll t macros)
  | clearAll mem =>
    refine ⟨iff_of_true trivial ?_, fun _ => clearAll_sound sound mem⟩
    rintro ⟨k, arrived, came, _⟩
    simp [entries, incoming] at came

theorem run_correct (nodup : Function.Injective uuid) (valid : ∀ n, uuid n ≠ "") (changes : List Change)
    (sound : t.Sound uuid) (legal : t.LegalRun uuid changes) : t.Correct uuid changes ↔ t.NoSlip uuid changes := by
  induction changes generalizing t with
  | nil => exact Iff.rfl
  | cons change rest ih =>
    obtain ⟨meets, next⟩ := step_meets nodup valid sound legal.1
    constructor
    · rintro ⟨met, later⟩
      exact ⟨meets.mp met, (ih (next (meets.mp met)) legal.2).mp later⟩
    · rintro ⟨clean, later⟩
      exact ⟨meets.mpr clean, (ih (next clean) legal.2).mpr later⟩

theorem clean_of_pinned
    (pinned : ∀ arrived ∈ incoming entries, arrived.secret = true → arrived.text = "" →
      arrived.rest.unread = true ∧ t.store.cannotCarrySecret arrived = true) : ¬ t.Slip entries := by
  rintro ⟨k, arrived, came, isSecret, blank, slip⟩
  obtain ⟨unread, carried⟩ := pinned arrived (List.mem_of_getElem? came) isSecret blank
  rw [if_pos unread, carried] at slip
  exact absurd slip (by simp)

def twins : List (Option (MacroEntry Unit) × Bool) :=
  [(some { id := some "a", name := some "one", text := some "", secret := true, rest := () }, false),
    (some { id := some "a", name := some "two", text := some "", secret := true, rest := () }, false)]

def vaultOfTwins : SeqMap String String := SeqMap.empty.set (macroSecretKey "a") "password"

def sampleId (n : Nat) : String := String.ofList (List.replicate (n + 1) 'u')

theorem sampleId_toList (n : Nat) : (sampleId n).toList = List.replicate (n + 1) 'u' := String.toList_ofList

theorem twins_unused : Unused sampleId vaultOfTwins twins where
  distinct := by
    intro m n same
    have lengths := congrArg (fun id => id.toList.length) same
    simpa [sampleId_toList] using lengths
  valid := by
    intro n same
    have lengths := congrArg (fun id => id.toList.length) same
    simp [sampleId_toList] at lengths
  unstored := by
    intro n
    rw [vaultOfTwins, SeqMap.get?_set, if_neg, SeqMap.get?_empty]
    intro same
    have firsts := congrArg (fun id => id.toList.head?) (macroSecretKey_injective same)
    simp [sampleId_toList, List.replicate_succ] at firsts
  unnamed := by
    intro n entry mem held hit same
    have own : held.id = some "a" := by
      simp only [twins, List.mem_cons, List.not_mem_nil, or_false] at mem
      obtain rfl | rfl := mem <;> (obtain rfl := Option.some.inj hit; rfl)
    rw [own, Option.some.injEq] at same
    have firsts := congrArg (fun id => id.toList.head?) same
    simp [sampleId_toList, List.replicate_succ] at firsts

def bothKept : Change := .save [.kept 1 (some "two") (some "") true, .kept 0 (some "one") (some "") true]

end NexTerminal.Macros.Tracked
