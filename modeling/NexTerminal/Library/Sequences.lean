import Mathlib.Data.List.Basic
import Mathlib.Data.List.DropRight
import Mathlib.Data.List.Forall2
import Mathlib.Data.List.Nodup
import Mathlib.Data.List.Perm.Basic
import Mathlib.Data.List.TakeWhile
import Mathlib.Data.Nat.Count

namespace NexTerminal.Library

variable {size i : Nat}

theorem count_unchanged (before after : Nat → Bool) (same : ∀ j, j < size → after j = before j) :
    Nat.count (after ·) size = Nat.count (before ·) size := by
  induction size with
  | zero => rfl
  | succ size ih =>
    rw [Nat.count_succ, Nat.count_succ, ih fun j small => same j (by omega), same size (by omega)]

theorem count_moved (before after : Nat → Bool) (inside : i < size) (others : ∀ j, j ≠ i → after j = before j) :
    Nat.count (after ·) size + (before i).toNat = Nat.count (before ·) size + (after i).toNat := by
  induction size with
  | zero => omega
  | succ size ih =>
    have one : ∀ (mem : Bool), (if mem = true then 1 else 0) = mem.toNat := by decide
    simp only [Nat.count_succ, one]
    by_cases last : i = size
    · subst last
      rw [count_unchanged before after fun j small => others j (by omega)]
      omega
    · rw [others size (Ne.symm last)]
      omega

theorem countP_joined {α : Type} {before after : α → Bool} {items : List α} {joined : α} (nodup : items.Nodup)
    (mem : joined ∈ items) (was : before joined = false) (is : after joined = true)
    (others : ∀ item, item ≠ joined → after item = before item) :
    items.countP after = items.countP before + 1 := by
  induction items with
  | nil => cases mem
  | cons item rest ih =>
    obtain ⟨fresh, nodup⟩ := List.nodup_cons.mp nodup
    by_cases same : item = joined
    · subst same
      have rest_same : rest.countP after = rest.countP before :=
        List.countP_congr fun other inside => by rw [others other fun at_item => fresh (at_item ▸ inside)]
      simp [was, is, rest_same]
    · have inside := (List.mem_cons.mp mem).resolve_left fun at_item => same at_item.symm
      simp only [List.countP_cons, others item same, ih nodup inside]
      omega

variable {α : Type*}

def chunk (size : Nat) (content : List α) (index : Nat) : List α := (content.drop (index * size)).take size

/-- The number of pieces; a content that fills its pieces ends with an empty one. -/
def chunkCount (size : Nat) (content : List α) : Nat := content.length / size + 1

def chunks (size : Nat) (content : List α) (count : Nat) : List (List α) :=
  (List.range count).map (chunk size content)

variable {size : Nat} {content : List α}

theorem length_chunk (idx : Nat) :
    (chunk size content idx).length = min size (content.length - idx * size) := by
  simp [chunk]

theorem chunk_length_le (idx : Nat) : (chunk size content idx).length ≤ size := by
  rw [length_chunk]
  exact Nat.min_le_left _ _

theorem chunk_short_iff (positive : 0 < size) {idx : Nat} (within : idx < chunkCount size content) :
    (chunk size content idx).length < size ↔ idx + 1 = chunkCount size content := by
  unfold chunkCount at within ⊢
  rw [length_chunk]
  constructor
  · intro short
    have whole : content.length < (idx + 1) * size := by
      rw [Nat.succ_mul]
      omega
    have quotient := (Nat.div_lt_iff_lt_mul positive).mpr whole
    omega
  · intro last
    have quotient : content.length / size < idx + 1 := by omega
    have whole := (Nat.div_lt_iff_lt_mul positive).mp quotient
    rw [Nat.succ_mul] at whole
    omega

@[simp] theorem chunks_zero : chunks size content 0 = [] := rfl

theorem chunks_succ (count : Nat) :
    chunks size content (count + 1) = chunks size content count ++ [chunk size content count] := by
  simp [chunks, List.range_succ]

theorem flatten_chunks (count : Nat) : (chunks size content count).flatten = content.take (count * size) := by
  induction count with
  | zero => simp
  | succ count ih =>
    rw [chunks_succ, List.flatten_append, ih, List.flatten_singleton, Nat.succ_mul, List.take_add]
    rfl

theorem flatten_all_chunks (positive : 0 < size) :
    (chunks size content (chunkCount size content)).flatten = content := by
  rw [flatten_chunks, List.take_of_length_le]
  have bound := Nat.lt_mul_div_succ content.length positive
  rw [Nat.mul_comm]
  exact Nat.le_of_lt bound

variable {α : Type*}

section
variable [BEq α] {separator : α}

theorem notMem_splitOn [LawfulBEq α] {list segment : List α} (mem : segment ∈ list.splitOn separator) :
    separator ∉ segment := by
  induction list generalizing segment with
  | nil =>
    rw [List.splitOn_nil, List.mem_singleton] at mem
    simp [mem]
  | cons item rest ih =>
    rw [List.splitOn_cons_eq_if_modifyHead] at mem
    split at mem
    · rcases List.mem_cons.mp mem with rfl | later
      · exact List.not_mem_nil
      · exact ih later
    · rename_i other
      obtain ⟨first, tail, shape⟩ := List.exists_cons_of_ne_nil (List.splitOn_ne_nil separator rest)
      rw [shape, List.modifyHead_cons] at mem
      rcases List.mem_cons.mp mem with rfl | later
      · have plain := ih (shape ▸ List.mem_cons_self)
        have differ : separator ≠ item := by
          rintro rfl
          exact other (beq_self_eq_true _)
        simp [plain, differ]
      · exact ih (shape ▸ List.mem_cons_of_mem _ later)

theorem splitOn_append (separator : α) (first second : List α) :
    (first ++ second).splitOn separator = (first.splitOn separator).dropLast ++
      (second.splitOn separator).modifyHead (((first.splitOn separator).getLast?.getD []) ++ ·) := by
  induction first with
  | nil =>
    cases shape : second.splitOn separator <;> simp [shape]
  | cons item first ih =>
    rw [List.cons_append, List.splitOn_cons_eq_if_modifyHead, List.splitOn_cons_eq_if_modifyHead, ih]
    by_cases separates : (item == separator) = true
    · rw [if_pos separates, if_pos separates]
      cases shape : first.splitOn separator with
      | nil => exact absurd shape (List.splitOn_ne_nil _ _)
      | cons head tail => simp
    · rw [if_neg separates, if_neg separates]
      cases shape : first.splitOn separator with
      | nil => exact absurd shape (List.splitOn_ne_nil _ _)
      | cons head tail =>
        cases tail with
        | nil => cases shape' : second.splitOn separator <;> simp
        | cons next tail => simp

theorem splitOn_append_of_notMem [LawfulBEq α] {first : List α} (plain : separator ∉ first) (second : List α) :
    (first ++ second).splitOn separator = (second.splitOn separator).modifyHead (first ++ ·) := by
  rw [splitOn_append, List.splitOn_eq_singleton plain]
  rfl

end

theorem rtake_rtake_append (count : Nat) (kept more : List α) :
    (kept.rtake count ++ more).rtake count = (kept ++ more).rtake count := by
  simp [List.rtake_eq_reverse_take_reverse, List.take_append,
    List.take_take]

theorem rtake_of_le {count : Nat} {list : List α} (short : list.length ≤ count) : list.rtake count = list := by
  rw [List.rtake, Nat.sub_eq_zero_of_le short, List.drop_zero]

variable {α β : Type*} {related other : α → β → Prop} {as : List α} {bs : List β}

theorem exists_of_forall₂ (all : List.Forall₂ related as bs) {a : α} (mem : a ∈ as) :
    ∃ b ∈ bs, related a b := by
  induction all with
  | nil => cases mem
  | cons is _ ih =>
    rcases List.mem_cons.mp mem with rfl | inside
    · exact ⟨_, List.mem_cons_self, is⟩
    · obtain ⟨b, later, is⟩ := ih inside
      exact ⟨b, List.mem_cons_of_mem _ later, is⟩

theorem exists_of_forall₂_right (all : List.Forall₂ related as bs) {b : β} (mem : b ∈ bs) :
    ∃ a ∈ as, related a b :=
  exists_of_forall₂ all.flip mem

theorem forall₂_and (first : List.Forall₂ related as bs) (second : List.Forall₂ other as bs) :
    List.Forall₂ (fun a b => related a b ∧ other a b) as bs := by
  induction first with
  | nil => exact .nil
  | cons head tail ih =>
    cases second with
    | cons head' tail' => exact .cons ⟨head, head'⟩ (ih tail')

theorem forall₂_mapIdx {f : Nat → α → β} (each : ∀ k a, related a (f k a)) (as : List α) :
    List.Forall₂ related as (as.mapIdx f) := by
  induction as generalizing f with
  | nil => exact .nil
  | cons a rest ih =>
    rw [List.mapIdx_cons]
    exact .cons (each 0 a) (ih fun k => each (k + 1))

variable {α : Type}

inductive Interleaved : List α → List α → List α → Prop
  | nil : Interleaved [] [] []
  | kept (x : α) {kept gone all} : Interleaved kept gone all → Interleaved (x :: kept) gone (x :: all)
  | gone (x : α) {kept gone all} : Interleaved kept gone all → Interleaved kept (x :: gone) (x :: all)

namespace Interleaved

variable {kept gone all : List α}

theorem append (split : Interleaved kept gone all) (more : List α) :
    Interleaved (kept ++ more) gone (all ++ more) := by
  induction split with
  | nil =>
    induction more with
    | nil => exact .nil
    | cons x rest ih => exact .kept x ih
  | kept x _ ih => exact .kept x ih
  | gone x _ ih => exact .gone x ih

/-- One more run of what was kept goes. -/
theorem remove (split : Interleaved kept gone all) {before run after : List α}
    (parts : kept = before ++ run ++ after) :
    ∃ others, others.Perm (gone ++ run) ∧ Interleaved (before ++ after) others all := by
  induction split generalizing before run with
  | nil =>
    obtain ⟨rfl, rfl, rfl⟩ : before = [] ∧ run = [] ∧ after = [] := by simpa using parts.symm
    exact ⟨[], .nil, .nil⟩
  | @kept x kept gone all split ih =>
    cases before with
    | cons first before =>
      obtain ⟨rfl, inner⟩ := List.cons.inj parts
      obtain ⟨others, same, left⟩ := ih inner
      exact ⟨others, same, .kept x left⟩
    | nil =>
      cases run with
      | nil =>
        rw [List.append_nil, List.nil_append]
        obtain rfl : x :: kept = after := parts
        exact ⟨gone, .refl _, .kept x split⟩
      | cons first run =>
        obtain ⟨rfl, inner⟩ := List.cons.inj parts
        obtain ⟨others, same, left⟩ := @ih [] run inner
        exact ⟨x :: others, (same.cons x).trans List.perm_middle.symm, .gone x left⟩
  | gone x _ ih =>
    obtain ⟨others, same, left⟩ := ih parts
    exact ⟨x :: others, same.cons x, .gone x left⟩

end Interleaved

variable {α : Type} {drops narrow : α → Bool}

/-- What is left of a list once what passes is dropped at both ends. -/
def trimWith (drops : α → Bool) (letters : List α) : List α :=
  ((letters.dropWhile drops).reverse.dropWhile drops).reverse

def leading (drops : α → Bool) (letters : List α) : List α := letters.takeWhile drops

def trailing (drops : α → Bool) (letters : List α) : List α :=
  ((letters.dropWhile drops).reverse.takeWhile drops).reverse

structure Bare (drops : α → Bool) (letters : List α) : Prop where
  head : ∀ a, letters.head? = some a → drops a = false
  last : ∀ a, letters.getLast? = some a → drops a = false

theorem trim_parts (drops : α → Bool) (letters : List α) :
    leading drops letters ++ trimWith drops letters ++ trailing drops letters = letters := by
  have back : trimWith drops letters ++ trailing drops letters = letters.dropWhile drops := by
    rw [trimWith, trailing, ← List.reverse_append, List.takeWhile_append_dropWhile, List.reverse_reverse]
  rw [List.append_assoc, back, leading, List.takeWhile_append_dropWhile]

variable {letters : List α}

theorem mem_leading : ∀ a ∈ leading drops letters, drops a = true :=
  fun _ mem => List.mem_takeWhile_imp mem

theorem mem_trailing : ∀ a ∈ trailing drops letters, drops a = true :=
  fun _ mem => List.mem_takeWhile_imp (List.mem_reverse.mp mem)

theorem dropWhile_bare (bare : ∀ a, letters.head? = some a → drops a = false) (ne : letters ≠ [])
    (rest : List α) : (letters ++ rest).dropWhile drops = letters ++ rest := by
  obtain ⟨a, tail, rfl⟩ := List.exists_cons_of_ne_nil ne
  rw [List.cons_append, List.dropWhile_cons_of_neg (by simp [bare a rfl])]

theorem bare_trimWith (letters : List α) : Bare drops (trimWith drops letters) where
  head a first := by
    rw [trimWith, List.head?_reverse] at first
    have suffix : (letters.dropWhile drops).reverse.dropWhile drops <:+
        (letters.dropWhile drops).reverse := List.dropWhile_suffix drops
    obtain ⟨front, whole⟩ := suffix
    have last : (letters.dropWhile drops).reverse.getLast? = some a := by
      rw [← whole, List.getLast?_append, first]; rfl
    rw [List.getLast?_reverse] at last
    have fails := List.head?_dropWhile_not drops letters
    rw [last] at fails
    simpa using fails
  last a final := by
    rw [trimWith, List.getLast?_reverse] at final
    have fails := List.head?_dropWhile_not drops (letters.dropWhile drops).reverse
    rw [final] at fails
    simpa using fails

theorem trimWith_eq_nil : trimWith drops letters = [] ↔ ∀ a ∈ letters, drops a = true := by
  constructor
  · intro none a mem
    rw [← trim_parts drops letters, none, List.append_nil] at mem
    rcases List.mem_append.mp mem with front | back
    · exact mem_leading a front
    · exact mem_trailing a back
  · intro all
    rw [trimWith, List.dropWhile_eq_nil_iff.mpr all]
    rfl

theorem Bare.weaken (within : ∀ a, narrow a = true → drops a = true) (bare : Bare drops letters) :
    Bare narrow letters where
  head a first := Bool.eq_false_iff.mpr fun passes =>
    absurd (within a passes) (by simp [bare.head a first])
  last a final := Bool.eq_false_iff.mpr fun passes =>
    absurd (within a passes) (by simp [bare.last a final])

theorem dropWhile_append_bare {front core : List α} (back : List α)
    (bare : ∀ a, core.head? = some a → drops a = false) (ne : core ≠ []) :
    (front ++ core ++ back).dropWhile drops = front.dropWhile drops ++ core ++ back := by
  rw [List.append_assoc, List.dropWhile_append]
  split
  · rename_i blank
    rw [dropWhile_bare bare ne _, List.isEmpty_iff.mp blank, List.nil_append]
  · rw [List.append_assoc]

theorem trimWith_margins {front core back : List α} (bare : Bare drops core)
    (ne : core ≠ []) :
    trimWith drops (front ++ core ++ back) =
      front.dropWhile drops ++ core ++ (back.reverse.dropWhile drops).reverse := by
  have backwards : ∀ a, core.reverse.head? = some a → drops a = false := fun a first =>
    bare.last a (List.head?_reverse ▸ first)
  have turned : (front.dropWhile drops ++ core ++ back).reverse =
      back.reverse ++ core.reverse ++ (front.dropWhile drops).reverse := by
    simp
  rw [trimWith, dropWhile_append_bare back bare.head ne, turned,
    dropWhile_append_bare _ backwards (by simpa using ne)]
  simp

section
variable {front back : List α} (before : ∀ a ∈ front, drops a = true)
  (after : ∀ a ∈ back, drops a = true)
include before after

theorem trimWith_append (letters : List α) : trimWith drops (front ++ letters ++ back) = trimWith drops letters := by
  rw [trimWith, List.append_assoc, List.dropWhile_append_of_pos before]
  by_cases blank : letters.dropWhile drops = []
  · have all : ∀ a ∈ letters ++ back, drops a = true := by
      intro a mem
      rcases List.mem_append.mp mem with inside | later
      · exact List.dropWhile_eq_nil_iff.mp blank a inside
      · exact after a later
    rw [List.dropWhile_eq_nil_iff.mpr all, trimWith, blank]
  · have kept : (letters ++ back).dropWhile drops = letters.dropWhile drops ++ back := by
      rw [List.dropWhile_append, if_neg (by simpa using blank)]
    have backwards : ∀ a ∈ back.reverse, drops a = true := fun a mem =>
      after a (List.mem_reverse.mp mem)
    rw [kept, List.reverse_append, List.dropWhile_append_of_pos backwards, trimWith]

end

theorem trimWith_trimWith (within : ∀ a, narrow a = true → drops a = true) (letters : List α) :
    trimWith drops (trimWith narrow letters) = trimWith drops letters := by
  have parts := trim_parts narrow letters
  calc trimWith drops (trimWith narrow letters)
      = trimWith drops (leading narrow letters ++ trimWith narrow letters ++
          trailing narrow letters) :=
        (trimWith_append (fun a mem => within a (mem_leading a mem))
          (fun a mem => within a (mem_trailing a mem)) _).symm
    _ = trimWith drops letters := by rw [parts]

theorem trimWith_bare (bare : Bare drops letters) : trimWith drops letters = letters := by
  by_cases ne : letters = []
  · rw [ne]; rfl
  · have front := dropWhile_bare bare.head ne []
    have back : ∀ a, letters.reverse.head? = some a → drops a = false := fun a first =>
      bare.last a (List.head?_reverse ▸ first)
    have rest := dropWhile_bare back (by simpa using ne) []
    simp only [List.append_nil] at front rest
    rw [trimWith, front, rest, List.reverse_reverse]

theorem margins_unique {front front' core core' back back' : List α}
    (before : ∀ a ∈ front, drops a = true) (before' : ∀ a ∈ front', drops a = true)
    (bare : Bare drops core) (bare' : Bare drops core') (ne : core ≠ []) (nonempty' : core' ≠ [])
    (same : front ++ core ++ back = front' ++ core' ++ back') : front = front' := by
  have run : ∀ {front core back : List α}, (∀ a ∈ front, drops a = true) → Bare drops core →
      core ≠ [] → (front ++ core ++ back).takeWhile drops = front := by
    intro front core back before bare ne
    obtain ⟨a, tail, rfl⟩ := List.exists_cons_of_ne_nil ne
    rw [List.append_assoc, List.takeWhile_append_of_pos before, List.cons_append,
      List.takeWhile_cons_of_neg (by simp [bare.head a rfl]), List.append_nil]
  calc front = (front ++ core ++ back).takeWhile drops := (run before bare ne).symm
    _ = (front' ++ core' ++ back').takeWhile drops := by rw [same]
    _ = front' := run before' bare' nonempty'

end NexTerminal.Library
