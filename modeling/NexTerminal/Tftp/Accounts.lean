import NexTerminal.Tftp.Calls

namespace NexTerminal.Tftp

open Dhcp (Text)
open Library

variable {held : SeqMap SocketAddr CompletedWrite} {env : Env}

theorem soonest_mem {addr : SocketAddr} (hit : TftpCore.soonest env held = some addr) : addr ∈ held.keys :=
  (env.perm held.keys).mem_iff.mp (List.argmin_mem hit)

theorem soonest_none (hit : TftpCore.soonest env held = none) : held.keys = [] := by
  have empty := List.argmin_eq_none.mp hit
  have same := env.perm held.keys
  rw [empty] at same
  exact same.nil_eq.symm

theorem evict_spec (env : Env) (limit : Nat) (peer : SocketAddr) (rounds : Nat)
    (held : SeqMap SocketAddr CompletedWrite) (enough : held.keys.length ≤ rounds) :
    (TftpCore.evict env limit peer rounds held).keys.length ≤ held.keys.length ∧
      ((TftpCore.evict env limit peer rounds held).has peer = true ∨
        (TftpCore.evict env limit peer rounds held).keys.length < limit ∨
        (TftpCore.evict env limit peer rounds held).keys = []) ∧
      ∀ other completed, (TftpCore.evict env limit peer rounds held).get? other = some completed →
        held.get? other = some completed := by
  induction rounds generalizing held with
  | zero => exact ⟨le_rfl, .inr (.inr (List.length_eq_zero_iff.mp (Nat.le_zero.mp enough))), fun _ _ => id⟩
  | succ rounds ih =>
    unfold TftpCore.evict
    split
    · cases hit : TftpCore.soonest env held with
      | none => exact ⟨le_rfl, .inr (.inr (soonest_none hit)), fun _ _ => id⟩
      | some addr =>
        dsimp only
        have shorter := SeqMap.length_keys_erase (soonest_mem hit)
        obtain ⟨fewer, room, kept⟩ := ih (held.erase addr) (by omega)
        exact ⟨by omega, room, fun other completed there =>
          (get?_erase_cases (kept other completed there)).2⟩
    · rename_i roomy
      refine ⟨le_rfl, ?_, fun _ _ => id⟩
      by_cases known : held.has peer = true
      · exact .inl known
      · refine .inr (.inl ?_)
        rw [Bool.not_eq_true] at known
        exact Nat.lt_of_not_le fun full => roomy ⟨full, known⟩

theorem length_keys_set {V : Type} (map : SeqMap SocketAddr V) (peer : SocketAddr) (value : V) :
    (map.set peer value).keys.length = if peer ∈ map.keys then map.keys.length else map.keys.length + 1 := by
  split
  · rename_i known
    rw [SeqMap.keys_set_known known]
  · rename_i unknown
    rw [SeqMap.keys_set_new unknown, List.length_append, List.length_singleton]

theorem remembered_length {limit : Nat} {peer : SocketAddr} {completed : CompletedWrite} (some : 0 < limit)
    (within : held.keys.length ≤ limit) : (Books.remembered env limit peer completed held).keys.length ≤ limit := by
  have filtered := SeqMap.length_keys_filterValues held fun held => held.expiresAt > env.now
  unfold Books.remembered
  generalize held.filterValues _ = fresh at filtered ⊢
  obtain ⟨fewer, room, -⟩ := evict_spec env limit peer fresh.keys.length fresh le_rfl
  rw [length_keys_set]
  split
  · omega
  · rename_i unknown
    rcases room with known | room | empty
    · exact absurd (SeqMap.mem_keys.mpr known) unknown
    · omega
    · rw [empty, List.length_nil]
      omega

/-- The tables are in step with each other, with the disk and with their limit. -/
structure Kept (limit : Nat) (books : Books) : Prop extends Booked books where
  bounded : books.transfers.keys.length ≤ limit
  remembered : books.completedWrites.keys.length ≤ limit
  onDisk : ∀ peer path, books.writePaths.get? peer = some path → path ∈ books.files
  distinct : ∀ peer other path, books.writePaths.get? peer = some path →
    books.writePaths.get? other = some path → peer = other

section Transitions

variable {env : Env} {limit : Nat} {packet : Option Packet} {peer : SocketAddr} {books next : Books}
  {effects : List Effect}

theorem mem_keys_of_get? {V : Type} {map : SeqMap SocketAddr V} {value : V}
    (held : map.get? peer = some value) : peer ∈ map.keys := SeqMap.mem_keys.mpr (by rw [held]; rfl)

theorem not_mem_keys {V : Type} {map : SeqMap SocketAddr V} (absent : map.get? peer = none) :
    peer ∉ map.keys := by
  rw [SeqMap.mem_keys, absent]
  exact Bool.false_ne_true

theorem Kept.close (kept : Kept limit books) (peer : SocketAddr) : Kept limit (books.close peer) := by
  refine ⟨kept.toBooked.close peer, ?_, kept.remembered, ?_, ?_⟩
  · show (books.transfers.erase peer).keys.length ≤ limit
    rw [SeqMap.keys_erase]
    exact (List.length_filter_le _ _).trans kept.bounded
  · intro other path held
    exact kept.onDisk other path (get?_erase_cases held).2
  · intro other another path held there
    exact kept.distinct other another path (get?_erase_cases held).2 (get?_erase_cases there).2

theorem Transition.keeps (transition : Transition env limit packet peer books next effects) (kept : Kept limit books) :
    Kept limit next := by
  have booked := transition.booked kept.toBooked
  cases transition with
  | refused | broken => exact kept
  | reacked carried absent held fresh covers =>
    refine ⟨booked, kept.bounded, ?_, kept.onDisk, kept.distinct⟩
    rw [SeqMap.keys_set_known (mem_keys_of_get? held)]
    exact kept.remembered
  | @started session path info quiet asked absent room own live upload new named rest =>
    have transfers : (books.register peer session path).transfers = books.transfers.set peer session := by
      cases path <;> rfl
    have completed : (books.register peer session path).completedWrites = books.completedWrites := by
      cases path <;> rfl
    refine ⟨booked, ?_, by rw [completed]; exact kept.remembered, ?_, ?_⟩
    · rw [transfers, SeqMap.keys_set_new (not_mem_keys absent), List.length_append]
      exact room
    · cases path with
      | none => exact kept.onDisk
      | some path =>
        intro other file held
        rcases get?_set_cases held with ⟨-, rfl⟩ | ⟨-, held⟩
        · exact List.mem_cons_self
        · exact List.mem_cons_of_mem _ (kept.onDisk other file held)
    · cases path with
      | none => exact kept.distinct
      | some path =>
        have fresh : ∀ other, books.writePaths.get? other ≠ some path :=
          fun other held => new path rfl (kept.onDisk other path held)
        intro other another file held there
        rcases get?_set_cases held with ⟨mine, rfl⟩ | ⟨-, pre⟩
        · rcases get?_set_cases there with ⟨also, -⟩ | ⟨-, owned⟩
          · exact mine.trans also.symm
          · exact absurd owned (fresh another)
        · rcases get?_set_cases there with ⟨-, rfl⟩ | ⟨-, owned⟩
          · exact absurd pre (fresh other)
          · exact kept.distinct other another file pre owned
  | @kept session next quiet held same live rest =>
    refine ⟨booked, ?_, kept.remembered, kept.onDisk, kept.distinct⟩
    rw [SeqMap.keys_set_known (mem_keys_of_get? held)]
    exact kept.bounded
  | @completed session next quiet held same last done rest =>
    have closed := kept.close peer
    unfold Books.complete at booked ⊢
    split
    · rename_i write
      rw [if_pos write] at booked
      have some : 0 < limit := (List.length_pos_of_mem (mem_keys_of_get? held)).trans_le kept.bounded
      exact ⟨booked, closed.bounded, remembered_length some kept.remembered, closed.onDisk, closed.distinct⟩
    · exact closed
  | failed held same rest =>
    have closed := kept.close peer
    cases mine : books.writePaths.get? peer with
    | none => exact closed
    | some path =>
      rw [mine] at booked
      refine ⟨booked, closed.bounded, closed.remembered, ?_, closed.distinct⟩
      intro other file held
      obtain ⟨another, there⟩ := get?_erase_cases held
      have differ : file ≠ path := fun same => another (kept.distinct other peer path (same ▸ there) mine)
      show file ∈ if env.removes path then books.files.filter (· ≠ path) else books.files
      split
      · exact List.mem_filter.mpr ⟨kept.onDisk other file there, by simpa using differ⟩
      · exact kept.onDisk other file there

def starts (effects : List Effect) : Nat := effects.countP Effect.isStart

def terminals (effects : List Effect) : Nat := effects.countP Effect.isTerminal

theorem starts_append (first second : List Effect) : starts (first ++ second) = starts first + starts second :=
  List.countP_append

theorem terminals_append (first second : List Effect) :
    terminals (first ++ second) = terminals first + terminals second := List.countP_append

theorem Quiet.counts (quiet : Quiet effects) : starts effects = 0 ∧ terminals effects = 0 := by
  constructor
  · refine List.countP_eq_zero.mpr fun effect mem => ?_
    have silent := quiet effect mem
    cases effect with
    | emit event => cases event <;> simp_all [Effect.isQuiet, Effect.isStart]
    | send | removeFile => simp [Effect.isStart]
  · refine List.countP_eq_zero.mpr fun effect mem => ?_
    have silent := quiet effect mem
    cases effect with
    | emit event => cases event <;> simp_all [Effect.isQuiet, Effect.isTerminal]
    | send | removeFile => simp [Effect.isTerminal]

theorem removal_counts (env : Env) (path : Option Path) :
    starts (removal env path) = 0 ∧ terminals (removal env path) = 0 := by
  cases path <;> exact ⟨rfl, rfl⟩

theorem Transition.counts (transition : Transition env limit packet peer books next effects) :
    books.transfers.keys.length + starts effects = next.transfers.keys.length + terminals effects := by
  cases transition with
  | refused absent refusals =>
    have quiet : Quiet effects := by
      intro effect mem
      obtain ⟨-, rfl, -⟩ := refusals effect mem
      rfl
    rw [quiet.counts.1, quiet.counts.2]
  | reacked => rfl
  | @started session path info quiet asked absent room own live upload new named rest =>
    have transfers : (books.register peer session path).transfers = books.transfers.set peer session := by
      cases path <;> rfl
    rw [transfers, SeqMap.keys_set_new (not_mem_keys absent), List.length_append, ← List.singleton_append,
      starts_append, terminals_append, rest.counts.1, rest.counts.2]
    rfl
  | broken asked absent named rest =>
    rw [← List.singleton_append, List.append_assoc, starts_append, starts_append, terminals_append,
      terminals_append, rest.counts.1, rest.counts.2]
    rfl
  | kept held same live rest =>
    rw [SeqMap.keys_set_known (mem_keys_of_get? held), rest.counts.1, rest.counts.2]
  | @completed session next quiet held same last done rest =>
    have transfers : (books.complete env limit peer next).transfers = books.transfers.erase peer := by
      unfold Books.complete
      split <;> rfl
    rw [transfers, starts_append, terminals_append, rest.counts.1, rest.counts.2,
      ← SeqMap.length_keys_erase (mem_keys_of_get? held)]
    rfl
  | failed held same rest =>
    have transfers : (books.fail env peer (books.writePaths.get? peer)).transfers = books.transfers.erase peer := by
      unfold Books.fail
      split <;> rfl
    rw [transfers, starts_append, starts_append, terminals_append, terminals_append, rest.counts.1, rest.counts.2,
      (removal_counts env _).1, (removal_counts env _).2, ← SeqMap.length_keys_erase (mem_keys_of_get? held)]
    rfl

def Owned (books : Books) (file : Path) : Prop := ∃ peer, books.writePaths.get? peer = some file

/-- What may become of the upload of a peer: it goes on, it completes and keeps its file, or it fails
and its file is removed. -/
def Fate (env : Env) (next : Books) (effects : List Effect) (peer : SocketAddr) (path : Path) : Prop :=
  next.writePaths.get? peer = some path ∨
    ¬ Owned next path ∧ ((∃ info, .emit (.transferComplete info) ∈ effects ∧ info.id = peer.toText) ∧
          path ∈ next.files ∨
        (∃ info reason code, .emit (.transferError info reason code) ∈ effects ∧ info.id = peer.toText) ∧
          .removeFile path (env.removes path) ∈ effects ∧ (env.removes path = true → path ∉ next.files))

theorem Fate.append {path : Path} {rest : List Effect} (fate : Fate env next rest peer path) (first : List Effect) :
    Fate env next (first ++ rest) peer path := by
  rcases fate with still | ⟨unowned, ⟨⟨info, complete, own⟩, there⟩ |
    ⟨⟨info, reason, code, error, own⟩, removal, removed⟩⟩
  · exact .inl still
  · exact .inr ⟨unowned, .inl ⟨⟨info, List.mem_append_right _ complete, own⟩, there⟩⟩
  · exact .inr ⟨unowned, .inr ⟨⟨info, reason, code, List.mem_append_right _ error, own⟩,
      List.mem_append_right _ removal, removed⟩⟩

section

variable (transition : Transition env limit packet peer books next effects)
include transition

theorem Transition.settled {file : Path} (there : file ∈ books.files) (free : ¬ Owned books file) :
    file ∈ next.files ∧ ¬ Owned next file := by
  have closed : ¬ Owned (books.close peer) file := by
    rintro ⟨other, held⟩
    exact free ⟨other, (get?_erase_cases held).2⟩
  cases transition with
  | refused | broken | reacked | kept => exact ⟨there, free⟩
  | @started session path info quiet asked absent room own live upload new named rest =>
    cases path with
    | none => exact ⟨there, free⟩
    | some path =>
      refine ⟨List.mem_cons_of_mem _ there, ?_⟩
      rintro ⟨other, held⟩
      rcases get?_set_cases held with ⟨-, rfl⟩ | ⟨-, pre⟩
      · exact new file rfl there
      · exact free ⟨other, pre⟩
  | completed held same last done rest =>
    unfold Books.complete
    split
    · exact ⟨there, closed⟩
    · exact ⟨there, closed⟩
  | failed held same rest =>
    cases mine : books.writePaths.get? peer with
    | none => exact ⟨there, closed⟩
    | some path =>
      refine ⟨?_, closed⟩
      have differ : file ≠ path := fun own => free ⟨peer, own ▸ mine⟩
      show file ∈ if env.removes path then books.files.filter (· ≠ path) else books.files
      split
      · exact List.mem_filter.mpr ⟨there, by simpa using differ⟩
      · exact there

theorem Transition.gone (unasked : ¬ Asked packet) {file : Path} (gone : file ∉ books.files) :
    file ∉ next.files := by
  cases transition with
  | refused | reacked | kept => exact gone
  | started asked | broken asked => exact absurd asked unasked
  | completed held same last done rest =>
    unfold Books.complete
    split <;> exact gone
  | failed held same rest =>
    unfold Books.fail
    split
    · exact gone
    · split
      · exact fun mem => gone (List.mem_filter.mp mem).1
      · exact gone

theorem Transition.fate (kept : Kept limit books) {owner : SocketAddr} {path : Path}
    (writing : books.writePaths.get? owner = some path) : Fate env next effects owner path := by
  have there := kept.onDisk owner path writing
  have closing : peer ≠ owner → (books.close peer).writePaths.get? owner = some path := by
    intro ne
    show (books.writePaths.erase peer).get? owner = some path
    rw [SeqMap.get?_erase, if_neg ne]
    exact writing
  have unowned : peer = owner → ¬ Owned (books.close peer) path := by
    rintro rfl ⟨another, held⟩
    obtain ⟨ne, pre⟩ := get?_erase_cases held
    exact ne (kept.distinct another peer path pre writing)
  cases transition with
  | refused | broken | reacked | kept => exact .inl writing
  | @started session file info quiet asked absent room own live upload new named rest =>
    refine .inl ?_
    cases file with
    | none => exact writing
    | some file =>
      show (books.writePaths.set peer file).get? owner = some path
      rw [SeqMap.get?_set, if_neg]
      · exact writing
      · rintro rfl
        rw [(kept.absent absent).2] at writing
        cases writing
  | @completed session next quiet held same last done rest =>
    by_cases mine : peer = owner
    · refine .inr ⟨?_, .inl ⟨⟨infoOf next, List.mem_append_right _ (List.mem_singleton_self _), ?_⟩, ?_⟩⟩
      · unfold Books.complete
        split <;> exact unowned mine
      · show next.peer.toText = owner.toText
        rw [same.peer, kept.own peer session held, mine]
      · unfold Books.complete
        split <;> exact there
    · refine .inl ?_
      unfold Books.complete
      split <;> exact closing mine
  | @failed session next quiet reason code held same rest =>
    by_cases mine : peer = owner
    · have own : books.writePaths.get? peer = some path := by rw [mine]; exact writing
      rw [own]
      refine .inr ⟨unowned mine, .inr ⟨⟨infoOf next, reason, code,
        List.mem_append_right _ (List.mem_singleton_self _), ?_⟩, ?_, ?_⟩⟩
      · show next.peer.toText = owner.toText
        rw [same.peer, kept.own peer session held, mine]
      · exact List.mem_append_left _ (List.mem_append_right _ (List.mem_singleton_self _))
      · intro removed
        show path ∉ if env.removes path then books.files.filter (· ≠ path) else books.files
        rw [if_pos removed]
        simp
    · refine .inl ?_
      cases books.writePaths.get? peer <;> exact closing mine

structure Disposed (env : Env) (books next : Books) (effects : List Effect) : Prop where
  uploads : ∀ peer path, books.writePaths.get? peer = some path → Fate env next effects peer path
  others : ∀ file ∈ books.files, ¬ Owned books file → file ∈ next.files ∧ ¬ Owned next file
  counts : books.transfers.keys.length + starts effects = next.transfers.keys.length + terminals effects

theorem Transition.disposed (kept : Kept limit books) : Disposed env books next effects :=
  ⟨fun _ _ => transition.fate kept, fun _ there free => transition.settled there free, transition.counts⟩

end

theorem Transitions.disposed (chain : Transitions env limit packet books next effects) (unasked : ¬ Asked packet)
    (kept : Kept limit books) :
    Kept limit next ∧ Disposed env books next effects ∧ ∀ file ∉ books.files, file ∉ next.files := by
  induction chain with
  | done books => exact ⟨kept, ⟨fun _ _ => .inl, fun _ there free => ⟨there, free⟩, rfl⟩, fun _ => id⟩
  | @next books middle last first rest peer transition later ih =>
    obtain ⟨keptLast, disposed, gone⟩ := ih (transition.keeps kept)
    refine ⟨keptLast, ⟨fun owner path writing => ?_, fun file there free => ?_, ?_⟩,
      fun file absent => gone file (transition.gone unasked absent)⟩
    · have announced {info : TransferInfo} {event : EngineEvent}
        (mem : .emit event ∈ first ∧ info.id = owner.toText) :
          .emit event ∈ first ++ rest ∧ info.id = owner.toText := ⟨List.mem_append_left _ mem.1, mem.2⟩
      rcases transition.fate kept writing with still |
        ⟨unowned, ⟨⟨info, complete⟩, there⟩ | ⟨failed, removal, removed⟩⟩
      · exact (disposed.uploads owner path still).append first
      · obtain ⟨still, free⟩ := disposed.others path there unowned
        exact .inr ⟨free, .inl ⟨⟨info, announced complete⟩, still⟩⟩
      · obtain ⟨info, reason, code, error⟩ := failed
        refine .inr ⟨?_, .inr ⟨⟨info, reason, code, announced error⟩, List.mem_append_left _ removal,
          fun works => gone path (removed works)⟩⟩
        by_cases there : path ∈ middle.files
        · exact (disposed.others path there unowned).2
        · rintro ⟨another, held⟩
          exact gone path there (keptLast.onDisk another path held)
    · obtain ⟨still, unowned⟩ := transition.settled there free
      exact disposed.others file still unowned
    · have one := transition.counts
      have more := disposed.counts
      rw [starts_append, terminals_append]
      omega

theorem Purged.kept {books next : Books} (purged : Purged env books next) (kept : Kept limit books) :
    Kept limit next := by
  have booked := purged.booked kept.toBooked
  have fewer := purged.fewer
  rw [purged.others] at booked ⊢
  exact ⟨booked, kept.bounded, fewer.trans kept.remembered, kept.onDisk, kept.distinct⟩

theorem Purged.disposed {books purged : Books} (records : Purged env books purged)
    (disposed : Disposed env purged next effects) : Disposed env books next effects := by
  rw [records.others] at disposed
  exact { disposed with }

theorem step_kept {core : TftpCore} (kept : Kept core.admission.max core.books) (input : Input) :
    (core.step input).1.admission = core.admission ∧ Kept core.admission.max (core.step input).1.books ∧
      Disposed input.env core.books (core.step input).1.books (core.step input).2 := by
  cases input with
  | message env msg peer =>
    obtain ⟨slot, purged, records, transition⟩ := step_message kept.toBooked env msg peer
    have pre := records.kept kept
    exact ⟨slot, transition.keeps pre, records.disposed (transition.disposed pre)⟩
  | tick env =>
    obtain ⟨slot, purged, records, chain⟩ := step_transitions kept.toBooked (.tick env)
    obtain ⟨after, disposed, -⟩ :=
      chain.disposed (by rintro ⟨req, asked | asked⟩ <;> cases asked) (records.kept kept)
    exact ⟨slot, after, records.disposed disposed⟩
  | cancel env transferId =>
    obtain ⟨slot, purged, records, chain⟩ := step_transitions kept.toBooked (.cancel env transferId)
    obtain ⟨after, disposed, -⟩ :=
      chain.disposed (by rintro ⟨req, asked | asked⟩ <;> cases asked) (records.kept kept)
    exact ⟨slot, after, records.disposed disposed⟩

end Transitions

def outcomes (events : List (Event TftpCore Input)) : List Effect := events.flatMap service.outputs

theorem run_kept {core : TftpCore} (kept : Kept core.admission.max core.books) (inputs : List Input) :
    (service.final core inputs).admission = core.admission ∧
      Kept core.admission.max (service.final core inputs).books ∧
      core.transfers.keys.length + starts (outcomes (service.history core inputs)) =
        (service.final core inputs).transfers.keys.length + terminals (outcomes (service.history core inputs)) ∧
      (∀ event ∈ service.history core inputs, Disposed event.input.env event.before.books
        (service.after event).books (service.outputs event)) ∧
      ∀ file ∈ core.files, ¬ Owned core.books file → file ∈ (service.final core inputs).files := by
  induction inputs generalizing core with
  | nil => exact ⟨rfl, kept, rfl, nofun, fun _ there _ => there⟩
  | cons input inputs ih =>
    obtain ⟨slot, after, disposed⟩ := step_kept kept input
    have kept' : Kept (core.step input).1.admission.max (core.step input).1.books := by
      rw [slot]
      exact after
    obtain ⟨slots, last, counts, all, settled⟩ := ih kept'
    refine ⟨slots.trans slot, ?_, ?_, ?_, ?_⟩
    · rw [slot] at last
      exact last
    · have one := disposed.counts
      show _ + starts ((core.step input).2 ++ outcomes (service.history (core.step input).1 inputs)) =
        _ + terminals ((core.step input).2 ++ outcomes (service.history (core.step input).1 inputs))
      rw [starts_append, terminals_append]
      show core.transfers.keys.length + _ = (service.final (core.step input).1 inputs).transfers.keys.length + _
      have pre : core.books.transfers = core.transfers := rfl
      have between : (core.step input).1.books.transfers = (core.step input).1.transfers := rfl
      rw [pre, between] at one
      omega
    · intro event listed
      rcases List.mem_cons.mp listed with rfl | listed
      · exact disposed
      · exact all event listed
    · intro file there free
      obtain ⟨still, unowned⟩ := disposed.others file there free
      exact settled file still unowned

theorem removeFiles_effects (env : Env) (paths : List Path) (core : TftpCore) :
    (paths.foldl (fun core path => core.removeFile env path) core).effects =
        core.effects ++ paths.map fun path => .removeFile path (env.removes path) := by
  induction paths generalizing core with
  | nil => exact (List.append_nil _).symm
  | cons path paths ih =>
    rw [List.foldl_cons, ih, List.map_cons, TftpCore.removeFile]
    exact List.append_assoc ..

theorem removeFiles_files {path : Path} (removed : env.removes path = true) (paths : List Path) (core : TftpCore)
    (gone : path ∈ paths ∨ path ∉ core.files) :
    path ∉ (paths.foldl (fun core path => core.removeFile env path) core).files := by
  induction paths generalizing core with
  | nil => exact gone.resolve_left nofun
  | cons other paths ih =>
    refine ih _ ?_
    by_cases own : path = other
    · subst own
      refine .inr ?_
      show path ∉ if env.removes path then core.files.filter (· ≠ path) else core.files
      rw [if_pos removed]
      simp
    · rcases gone with mem | absent
      · exact .inl ((List.mem_cons.mp mem).resolve_left own)
      · refine .inr ?_
        show path ∉ if env.removes other then core.files.filter (· ≠ other) else core.files
        split
        · exact fun mem => absent (List.mem_filter.mp mem).1
        · exact absent

theorem shutdown_removes (core : TftpCore) (env : Env) {peer : SocketAddr} {path : Path}
    (writing : core.writePaths.get? peer = some path) :
    .removeFile path (env.removes path) ∈ (core.shutdown env).effects ∧
      (env.removes path = true → path ∉ (core.shutdown env).files) := by
  have mem : path ∈ (env.order core.writePaths.keys).filterMap core.writePaths.get? :=
    List.mem_filterMap.mpr ⟨peer, (env.perm _).mem_iff.mpr (mem_keys_of_get? writing), writing⟩
  constructor
  · show _ ∈ (List.foldl _ core _).effects
    rw [removeFiles_effects]
    exact List.mem_append_right _ (List.mem_map_of_mem mem)
  · intro removed
    exact removeFiles_files removed _ core (.inl mem)

/-- What the books of a service say between two calls of a run. -/
structure Accounted (maxTransfers : Nat) (events : List (Event TftpCore Input)) (state : TftpCore) : Prop where
  bounded : state.transfers.keys.length ≤ maxTransfers
  released : state.admission.reserved = 0
  handles : ∀ peer, peer ∈ state.writeHandles.keys ↔
    ∃ session, state.transfers.get? peer = some session ∧ session.direction = .write
  paths : ∀ peer, peer ∈ state.writePaths.keys ↔
    ∃ session, state.transfers.get? peer = some session ∧ session.direction = .write
  counts : starts (outcomes events) = terminals (outcomes events) + state.transfers.keys.length
  remembered : state.completedWrites.keys.length ≤ maxTransfers
  /-- In every call, each upload goes on, completes and keeps its file, or fails and loses it. -/
  uploads : ∀ event ∈ events, ∀ peer path, event.before.writePaths.get? peer = some path →
    Fate event.input.env (service.after event).books (service.outputs event) peer path
  stopped : ∀ env peer path, state.writePaths.get? peer = some path →
    .removeFile path (env.removes path) ∈ (state.shutdown env).effects ∧
      (env.removes path = true → path ∉ (state.shutdown env).files)

theorem kept_new (windows allowWrite : Bool) (maxTransfers : Nat) :
    Kept (TftpCore.new windows allowWrite maxTransfers).admission.max
      (TftpCore.new windows allowWrite maxTransfers).books := by
  have nobody {V : Type} {peer : SocketAddr} {value : V}
      (held : (SeqMap.empty : SeqMap SocketAddr V).get? peer = some value) : False := by
    cases held
  have nothing {V : Type} {peer : SocketAddr} : ¬ ((SeqMap.empty : SeqMap SocketAddr V).get? peer).isSome = true := by
    exact Bool.false_ne_true
  refine ⟨⟨fun _ _ held => (nobody held).elim, fun _ _ held => (nobody held).elim, fun _ => ?_, fun _ => ?_⟩,
    Nat.zero_le _, Nat.zero_le _, fun _ _ held => (nobody held).elim, fun _ _ _ held => (nobody held).elim⟩
  · exact iff_of_false nothing fun held => nobody held.choose_spec.1
  · exact iff_of_false nothing fun held => nobody held.choose_spec.1

end NexTerminal.Tftp
