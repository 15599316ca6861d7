import Mathlib.Algebra.GroupWithZero.Nat
import Mathlib.Data.Option.Basic
import Mathlib.Data.List.Basic

namespace NexTerminal.Library

variable {H R : Type*}

abbrev Claims (H R : Type*) := H → Option R

namespace Claims

def Exclusive (claims : Claims H R) : Prop := ∀ ⦃h k : H⦄ ⦃r :
    R⦄, claims h = some r → claims k = some r → h = k

/-- Exclusive claims that leave every reserved resource to its owner. -/
structure Sound (reserved claims : Claims H R) : Prop where
  exclusive : claims.Exclusive
  respects : ∀ ⦃h k : H⦄ ⦃r : R⦄, claims h = some r → reserved k = some r → h = k

variable {reserved claims next : Claims H R}

theorem Sound.empty (nothing : ∀ h, claims h = none) : Sound reserved claims where
  exclusive h _ _ held := by rw [nothing h] at held; cases held
  respects h _ _ held := by rw [nothing h] at held; cases held

theorem Sound.lapse (sound : Sound reserved claims)
    (shrinks : ∀ h r, next h = some r → claims h = some r) : Sound reserved next where
  exclusive h k r atH atK := sound.exclusive (shrinks h r atH) (shrinks k r atK)
  respects h _ r atH owned := sound.respects (shrinks h r atH) owned

theorem Sound.grant (sound : Sound reserved claims) {h : H} {r : R} (free : ∀ k, claims k = some r → k = h)
    (unreserved : ∀ k, reserved k = some r → k = h)
    (grants : ∀ k s, next k = some s → claims k = some s ∨ (k = h ∧ s = r)) : Sound reserved next := by
  constructor
  · intro first second s atFirst atSecond
    rcases grants first s atFirst with old | ⟨rfl, rfl⟩
    · rcases grants second s atSecond with old' | ⟨rfl, rfl⟩
      · exact sound.exclusive old old'
      · exact free first old
    · rcases grants second s atSecond with old' | ⟨same, _⟩
      · exact (free second old').symm
      · exact same.symm
  · intro first second s atFirst owned
    rcases grants first s atFirst with old | ⟨rfl, rfl⟩
    · exact sound.respects old owned
    · exact (unreserved second owned).symm

theorem Sound.reseat (sound : Sound reserved claims) (nodup : reserved.Exclusive)
    (reseats : ∀ k s, next k = some s → claims k = some s ∨ reserved k = some s) : Sound reserved next := by
  constructor
  · intro first second s atFirst atSecond
    rcases reseats first s atFirst with old | own
    · rcases reseats second s atSecond with old' | own'
      · exact sound.exclusive old old'
      · exact sound.respects old own'
    · rcases reseats second s atSecond with old' | own'
      · exact (sound.respects old' own).symm
      · exact nodup own own'
  · intro first second s atFirst owned
    rcases reseats first s atFirst with old | own
    · exact sound.respects old owned
    · exact nodup own owned

end Claims

section Modify

variable {α β : Type*} {items : List α} {i j : Nat} {item : α}

theorem exists_of_modify {change : α → α} (hit : (items.modify i change)[j]? = some item) :
    ∃ old, items[j]? = some old ∧ item = if i = j then change old else old := by
  rw [List.getElem?_modify, Option.map_eq_map, Option.map_eq_some_iff] at hit
  obtain ⟨old, was, is⟩ := hit
  exact ⟨old, was, is.symm⟩

theorem modify_found (hit : items[j]? = some item) (change : α → α) :
    (items.modify i change)[j]? = some (if i = j then change item else item) := by
  rw [List.getElem?_modify, hit]
  rfl

theorem map_modify {view : α → β} {change : α → α} {changed : β → β}
    (same : ∀ item, view (change item) = changed (view item))
    (items : List α) (i : Nat) : (items.modify i change).map view = (items.map view).modify i changed := by
  refine List.ext_getElem? fun j => ?_
  simp only [List.getElem?_map, List.getElem?_modify, Option.map_eq_map, Option.map_map]
  congr 1
  funext item
  by_cases here : i = j <;> simp [here, same]

theorem map_modify_same {view : α → β} {change : α → α} (same : ∀ item, view (change item) = view item)
    (items : List α) (i : Nat) : (items.modify i change).map view = items.map view := by
  have unseen : ∀ item, view (change item) = id (view item) := same
  rw [map_modify unseen, List.modify_id]

theorem getElem?_snoc {last : α} (hit : (items ++ [last])[j]? = some item) :
    items[j]? = some item ∨ j = items.length ∧ item = last := by
  rcases Nat.lt_trichotomy j items.length with inside | rfl | beyond
  · rw [List.getElem?_append_left inside] at hit
    exact .inl hit
  · rw [List.getElem?_concat_length] at hit
    exact .inr ⟨rfl, (Option.some.inj hit).symm⟩
  · rw [List.getElem?_eq_none (by simp; omega)] at hit
    cases hit

theorem getElem?_kept (hit : items[j]? = some item) (more : List α) : (items ++ more)[j]? = some item := by
  rw [List.getElem?_append_left (List.getElem?_eq_some_iff.mp hit).1, hit]

theorem sum_modify (hit : items[i]? = some item) (change : α → α) (amount : α → Nat) :
    ((items.modify i change).map amount).sum + amount item = (items.map amount).sum + amount (change item) := by
  induction items generalizing i with
  | nil => cases hit
  | cons first rest ih =>
    cases i with
    | zero =>
      obtain rfl := Option.some.inj hit
      simp only [List.modify_zero_cons, List.map_cons, List.sum_cons]
      omega
    | succ i =>
      have tail := ih hit
      simp only [List.modify_succ_cons, List.map_cons, List.sum_cons]
      omega

end Modify

variable {H : Type*} (holds : H → Option Nat) {holders : List H} {holder : H} {k : Nat}

def shares (holders : List H) (thing : Nat) : Nat := holders.countP fun holder => holds holder = some thing

variable {holds}

theorem shares_append (holders : List H) (holder : H) (thing : Nat) :
    shares holds (holders ++ [holder]) thing = shares holds holders thing + if holds holder =
      some thing then 1 else 0 := by
  simp [shares]

theorem shares_modify (hit : holders[k]? = some holder) (change : H → H) (thing : Nat) :
    shares holds (holders.modify k change) thing + (if holds holder = some thing then 1 else 0) =
      shares holds holders thing + if holds (change holder) = some thing then 1 else 0 := by
  induction holders generalizing k with
  | nil => cases hit
  | cons first rest ih =>
    cases k with
    | zero =>
      obtain rfl := Option.some.inj hit
      simp only [shares, List.modify_zero_cons, List.countP_cons, decide_eq_true_eq]
      omega
    | succ k =>
      have tail := ih hit
      simp only [shares, List.modify_succ_cons, List.countP_cons] at tail ⊢
      omega

theorem shares_modify_same (hit : holders[k]? = some holder) {change : H → H}
    (same : holds (change holder) = holds holder) (thing : Nat) :
    shares holds (holders.modify k change) thing = shares holds holders thing := by
  have moved := @shares_modify _ holds _ _ _ hit change thing
  rw [same] at moved
  omega

theorem shares_eq_zero {thing : Nat} (unheld : shares holds holders thing = 0) (hit : holders[k]? = some holder) :
    holds holder ≠ some thing := by
  have nobody := List.countP_eq_zero.mp unheld holder (List.mem_of_getElem? hit)
  simpa using nobody

/-- A share that is not zero has a holder. -/
theorem exists_holder {thing : Nat} (held : shares holds holders thing ≠ 0) :
    ∃ (k : Nat) (holder : H), holders[k]? = some holder ∧ holds holder = some thing := by
  obtain ⟨holder, mem, holding⟩ := List.countP_pos_iff.mp (Nat.pos_of_ne_zero held)
  obtain ⟨k, hit⟩ : ∃ k : Nat, holders[k]? = some holder := List.mem_iff_getElem?.mp mem
  exact ⟨k, holder, hit, by simpa using holding⟩

end NexTerminal.Library
