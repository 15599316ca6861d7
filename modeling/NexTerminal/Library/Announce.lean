import Mathlib.Data.List.Basic
import Mathlib.Order.Basic

namespace NexTerminal.Library.Announce

/-- What a party comes to hold, from what it holds and what it hears. -/
abbrev Verdict := Option Bool → Bool → Bool

/-- Whatever it hears, it comes to hold the one answer. -/
def Insists (answer : Bool) (verdict : Verdict) : Prop := ∀ held asked, verdict held asked = answer

def Follows (verdict : Verdict) : Prop := ∀ held asked, verdict held asked = asked

structure Party where
  held : Option Bool
  inbox : List Bool
deriving DecidableEq

structure Dialogue where
  near : Party
  far : Party
deriving DecidableEq

/-- Those of the announcements that will change what is held. -/
def changes : Option Bool → List Bool → List Bool
  | _, [] => []
  | held, asked :: rest => if held = some asked then changes held rest else asked :: changes (some asked) rest

def Party.pending (party : Party) : List Bool := changes party.held party.inbox

def Party.ask (party : Party) (asked : Bool) : Party := { party with inbox := party.inbox ++ [asked] }

namespace Dialogue

def swap (d : Dialogue) : Dialogue := { near := d.far, far := d.near }

def hear (verdict : Verdict) (d : Dialogue) : Dialogue :=
  match d.near.inbox with
  | [] => d
  | asked :: rest =>
    let next := verdict d.near.held asked
    if d.near.held = some next then { d with near := { d.near with inbox := rest } }
    else { near := { held := some next, inbox := rest }, far := d.far.ask next }

def answers (verdict : Verdict) (d : Dialogue) : Nat :=
  match d.near.inbox with
  | [] => 0
  | asked :: _ => if d.near.held = some (verdict d.near.held asked) then 0 else 1

def ask (asked : Bool) (d : Dialogue) : Dialogue := { d with near := d.near.ask asked }

/-- What the near party holds; a party that has held nothing yet is as one that
holds the opposite of what it is going to be told first. -/
def stand (d : Dialogue) : Option Bool := d.near.held <|> (d.near.pending ++ d.far.pending).head?.map not

/-- When the far party has heard what is on its way, it holds something other than the near one. -/
def atOdds (d : Dialogue) : Bool := (d.far.inbox.getLast? <|> d.swap.stand) != d.stand

/-- No more changes are on their way than there are parties to absorb them. -/
def Settling (d : Dialogue) : Prop :=
  d.near.pending.length + d.far.pending.length ≤ d.atOdds.toNat + d.swap.atOdds.toNat

instance (d : Dialogue) : Decidable d.Settling := inferInstanceAs (Decidable (_ ≤ _))

def Quiet (d : Dialogue) : Prop := d.near.inbox = [] ∧ d.far.inbox = []

instance (d : Dialogue) : Decidable d.Quiet := inferInstanceAs (Decidable (_ ∧ _))

end Dialogue

/-- A run of the dialogue, with the announcements of outsiders, each of which leaves it
as `allowed`, and the answers counted. -/
inductive Talk (near far : Verdict) (allowed : Dialogue → Prop) (start : Dialogue) : Dialogue → Nat → Nat → Prop
  | start : Talk near far allowed start start 0 0
  | hear {d asked answered} : Talk near far allowed start d asked answered →
      Talk near far allowed start (d.hear near) asked (answered + d.answers near)
  | hearFar {d asked answered} : Talk near far allowed start d asked answered →
      Talk near far allowed start (d.swap.hear far).swap asked (answered + d.swap.answers far)
  | ask {d asked answered} (m : Bool) : Talk near far allowed start d asked answered →
      allowed (d.ask m) → Talk near far allowed start (d.ask m) (asked + 1) answered
  | askFar {d asked answered} (m : Bool) : Talk near far allowed start d asked answered →
      allowed (d.swap.ask m).swap → Talk near far allowed start (d.swap.ask m).swap (asked + 1) answered

theorem changes_same {held : Option Bool} {asked : Bool} (same : held = some asked) (rest : List Bool) :
    changes held (asked :: rest) = changes held rest := if_pos same

theorem changes_other {held : Option Bool} {asked : Bool} (ne : held ≠ some asked) (rest : List Bool) :
    changes held (asked :: rest) = asked :: changes (some asked) rest := if_neg ne

theorem last_cons (held : Option Bool) (first : Bool) (rest : List Bool) :
    ((first :: rest).getLast? <|> held) = (rest.getLast? <|> some first) := by
  rw [List.getLast?_cons]
  cases rest.getLast? <;> rfl

theorem changes_append (held : Option Bool) (inbox : List Bool) (asked : Bool) :
    changes held (inbox ++ [asked]) =
      changes held inbox ++ if (inbox.getLast? <|> held) = some asked then [] else [asked] := by
  induction inbox generalizing held with
  | nil => simp [changes]
  | cons first rest ih =>
    rw [last_cons, List.cons_append]
    rcases eq_or_ne held (some first) with same | other
    · rw [changes_same same, changes_same same, ih, same]
    · rw [changes_other other, changes_other other, ih, List.cons_append]

namespace Dialogue

@[simp] theorem swap_swap (d : Dialogue) : d.swap.swap = d := rfl
@[simp] theorem swap_near (d : Dialogue) : d.swap.near = d.far := rfl
@[simp] theorem swap_far (d : Dialogue) : d.swap.far = d.near := rfl

theorem settling_swap (d : Dialogue) : d.swap.Settling ↔ d.Settling := by
  unfold Settling
  simp only [swap_near, swap_far, swap_swap]
  omega

theorem hear_empty {d : Dialogue} (empty : d.near.inbox = []) (verdict : Verdict) :
    d.hear verdict = d ∧ d.answers verdict = 0 := by
  simp [hear, answers, empty]

variable {d : Dialogue} {verdict : Verdict} {asked : Bool} {rest : List Bool}

theorem hear_same (verdict : Verdict) (inbox : d.near.inbox = asked :: rest)
    (same : d.near.held = some (verdict d.near.held asked)) :
    d.hear verdict = { d with near := { d.near with inbox := rest } } ∧ d.answers verdict = 0 := by
  simp only [hear, answers, inbox]
  exact ⟨if_pos same, if_pos same⟩

theorem hear_other (verdict : Verdict) (inbox : d.near.inbox = asked :: rest)
    (ne : d.near.held ≠ some (verdict d.near.held asked)) :
    d.hear verdict =
        { near := { held := some (verdict d.near.held asked), inbox := rest },
          far := d.far.ask (verdict d.near.held asked) } ∧ d.answers verdict = 1 := by
  simp only [hear, answers, inbox]
  exact ⟨if_neg ne, if_neg ne⟩

theorem hear_far_held (d : Dialogue) (verdict : Verdict) : (d.hear verdict).far.held = d.far.held := by
  cases inbox : d.near.inbox with
  | nil => rw [(hear_empty inbox verdict).1]
  | cons asked rest =>
    by_cases same : d.near.held = some (verdict d.near.held asked)
    · rw [(hear_same verdict inbox same).1]
    · rw [(hear_other verdict inbox same).1]
      rfl

section Following

variable (follows : Follows verdict)
include follows

theorem hear_follows (inbox : d.near.inbox = asked :: rest) (ne : d.near.held ≠ some asked) :
    d.hear verdict = { near := { held := some asked, inbox := rest }, far := d.far.ask asked } ∧
      d.answers verdict = 1 := by
  have changed := follows d.near.held asked
  have heard := hear_other verdict inbox (changed.symm ▸ ne : d.near.held ≠ some (verdict d.near.held asked))
  rwa [changed] at heard

theorem hear_follows_same (inbox : d.near.inbox = asked :: rest) (same : d.near.held = some asked) :
    d.hear verdict = { d with near := { d.near with inbox := rest } } ∧ d.answers verdict = 0 :=
  hear_same verdict inbox (by rwa [follows])

theorem pending_hear : (d.hear verdict).near.pending.length + d.answers verdict = d.near.pending.length := by
  cases inbox : d.near.inbox with
  | nil => rw [(hear_empty inbox verdict).1, (hear_empty inbox verdict).2]; rfl
  | cons asked rest =>
    have pre : d.near.pending = changes d.near.held (asked :: rest) := by rw [Party.pending, inbox]
    rcases eq_or_ne d.near.held (some asked) with same | other
    · obtain ⟨next, answered⟩ := hear_follows_same follows inbox same
      rw [next, answered, pre, changes_same same]
      rfl
    · obtain ⟨next, answered⟩ := hear_follows follows inbox other
      rw [next, answered, pre, changes_other other]
      rfl

end Following

section Change

variable {x y : Option Bool} {m : Bool} {older : List Bool}

def heard (x : Option Bool) (m : Bool) (rest : List Bool) (y : Option Bool) (older : List Bool) : Dialogue :=
  { near := ⟨x, m :: rest⟩, far := ⟨y, older⟩ }

def told (m : Bool) (rest : List Bool) (y : Option Bool) (older : List Bool) : Dialogue :=
  { near := ⟨some m, rest⟩, far := ⟨y, older ++ [m]⟩ }

theorem stand_heard (ne : x ≠ some m) : (heard x m rest y older).stand = some (!m) := by
  have pending : (heard x m rest y older).near.pending = m :: changes (some m) rest := changes_other ne rest
  rw [stand, pending]
  cases x with
  | none => rfl
  | some b => cases b <;> cases m <;> simp_all [heard]

theorem far_stand_told (ne : x ≠ some m) :
    (told m rest y older).swap.stand = (heard x m rest y older).swap.stand := by
  cases y with
  | some b => rfl
  | none =>
    simp only [stand, heard, swap_far, Party.pending, changes_other ne]
    cases older <;> rfl

theorem atOdds_told : (told m rest y older).atOdds = false := by
  simp [atOdds, told, stand]

theorem far_atOdds_told (ne : x ≠ some m) :
    (told m rest y older).swap.atOdds = (heard x m rest y older).swap.atOdds := by
  rw [atOdds, far_stand_told ne, atOdds, swap_swap]
  simp only [swap_far, heard, last_cons]
  rfl

theorem absorbed_iff (ne : x ≠ some m) :
    (older.getLast? <|> y) = some m ↔ (heard x m rest y older).atOdds = true := by
  rw [atOdds, stand_heard ne]
  rcases older.eq_nil_or_concat with empty | ⟨pre, last, ends⟩
  · subst empty
    have pending : (heard x m rest y []).near.pending = m :: changes (some m) rest := changes_other ne rest
    rw [stand, swap_far, pending]
    cases y with
    | none => cases m <;> simp [heard, Party.pending, changes]
    | some b => cases b <;> cases m <;> simp [heard]
  · subst ends
    cases last <;> cases m <;> simp [heard]

theorem near_pending_heard (rest : List Bool) (y : Option Bool) (older : List Bool) (ne : x ≠ some m) :
    (heard x m rest y older).near.pending.length = (told m rest y older).near.pending.length + 1 := by
  simp [Party.pending, heard, told, changes_other ne]

theorem far_pending_told (rest : List Bool) (y : Option Bool) (older : List Bool) (ne : x ≠ some m) :
    (told m rest y older).far.pending.length + (heard x m rest y older).atOdds.toNat =
      (heard x m rest y older).far.pending.length + 1 := by
  simp only [Party.pending, told, changes_append, List.length_append]
  by_cases absorbed : (older.getLast? <|> y) = some m
  · rw [if_pos absorbed, (absorbed_iff ne).mp absorbed]
    rfl
  · rw [if_neg absorbed, Bool.eq_false_iff.mpr fun odds => absorbed ((absorbed_iff ne).mpr odds)]
    rfl

theorem settling_told (ne : x ≠ some m) :
    (told m rest y older).Settling ↔ (heard x m rest y older).Settling := by
  have near := near_pending_heard rest y older ne
  have far := far_pending_told rest y older ne
  simp only [Settling, atOdds_told, far_atOdds_told ne, Bool.toNat_false]
  omega

end Change

theorem silent (m : Bool) (rest : List Bool) (far : Party) :
    let pre : Dialogue := { near := ⟨some m, m :: rest⟩, far }
    let after : Dialogue := { near := ⟨some m, rest⟩, far }
    pre.near.pending = after.near.pending ∧ pre.atOdds = after.atOdds ∧ pre.swap.atOdds = after.swap.atOdds := by
  have pending : changes (some m) (m :: rest) = changes (some m) rest := changes_same rfl rest
  refine ⟨pending, ?_, ?_⟩
  · simp [atOdds, stand, Party.pending, pending]
  · simp only [atOdds, stand, swap, Party.pending, pending, last_cons]
    rfl

theorem settling_hear (follows : Follows verdict) : (d.hear verdict).Settling ↔ d.Settling := by
  obtain ⟨⟨x, inbox⟩, ⟨y, older⟩⟩ := d
  cases inbox with
  | nil => rw [(hear_empty rfl verdict).1]
  | cons m rest =>
    rcases eq_or_ne x (some m) with same | other
    · rw [(hear_follows_same follows rfl same).1]
      subst same
      obtain ⟨pending, odds, far_odds⟩ := silent m rest ⟨y, older⟩
      simp [Settling, pending, odds, far_odds]
    · rw [(hear_follows follows rfl other).1]
      exact settling_told other

/-- How many answers one party's changes take: two each, but one for the first where it is absorbed. -/
def cost (d : Dialogue) : Nat :=
  if d.near.pending.isEmpty then 0 else 2 * d.near.pending.length - d.atOdds.toNat

def potential (d : Dialogue) : Nat := d.cost + d.swap.cost

theorem potential_le (settling : d.Settling) : d.potential ≤ 3 := by
  unfold Settling at settling
  have near := d.atOdds.toNat_le
  have far := d.swap.atOdds.toNat_le
  simp only [potential, cost, swap_near, List.isEmpty_iff_length_eq_zero]
  split_ifs <;> omega

theorem potential_told {x y : Option Bool} {m : Bool} {older : List Bool} (ne : x ≠ some m)
    (settling : (heard x m rest y older).Settling) :
    1 + (told m rest y older).potential ≤ (heard x m rest y older).potential := by
  have near := near_pending_heard rest y older ne
  have far := far_pending_told rest y older ne
  have far_odds := (heard x m rest y older).swap.atOdds.toNat_le
  unfold Settling at settling
  simp only [potential, cost, swap_near, List.isEmpty_iff_length_eq_zero, far_atOdds_told ne]
  split_ifs <;> omega

theorem potential_hear (follows : Follows verdict) (settling : d.Settling) :
    d.answers verdict + (d.hear verdict).potential ≤ d.potential := by
  obtain ⟨⟨x, inbox⟩, ⟨y, older⟩⟩ := d
  cases inbox with
  | nil =>
    obtain ⟨next, answered⟩ := hear_empty (d := ⟨⟨x, []⟩, ⟨y, older⟩⟩) rfl verdict
    rw [next]
    omega
  | cons m rest =>
    rcases eq_or_ne x (some m) with same | other
    · obtain ⟨next, answered⟩ := hear_follows_same (d := ⟨⟨x, m :: rest⟩, ⟨y, older⟩⟩) follows rfl same
      subst same
      obtain ⟨pending, odds, far_odds⟩ := silent m rest ⟨y, older⟩
      have unchanged : potential ⟨⟨some m, rest⟩, ⟨y, older⟩⟩ =
        potential ⟨⟨some m, m :: rest⟩, ⟨y, older⟩⟩ := by
        unfold potential cost
        rw [pending, odds, far_odds]
        rfl
      rw [next]
      exact Nat.le_of_eq (by rw [answered, Nat.zero_add, unchanged])
    · obtain ⟨next, answered⟩ := hear_follows (d := ⟨⟨x, m :: rest⟩, ⟨y, older⟩⟩) follows rfl other
      rw [next, answered]
      exact potential_told other settling

theorem potential_swap (d : Dialogue) : d.swap.potential = d.potential := Nat.add_comm _ _

theorem settling_quiet (quiet : d.Quiet) : d.Settling := by
  have near : d.near.pending = [] := by rw [Party.pending, quiet.1]; rfl
  have far : d.far.pending = [] := by rw [Party.pending, quiet.2]; rfl
  simp [Settling, near, far]

/-- One announcement on its way leaves somebody at odds. -/
theorem settling_ask (quiet : d.Quiet) (m : Bool) : (d.ask m).Settling := by
  obtain ⟨⟨x, inbox⟩, ⟨y, older⟩⟩ := d
  obtain ⟨rfl, rfl⟩ : inbox = [] ∧ older = [] := quiet
  rcases x with _ | _ | _ <;> rcases y with _ | _ | _ <;> cases m <;> decide

theorem potential_quiet (quiet : d.Quiet) : d.potential = 0 := by
  have near : d.near.pending = [] := by rw [Party.pending, quiet.1]; rfl
  have far : d.far.pending = [] := by rw [Party.pending, quiet.2]; rfl
  simp [potential, cost, near, far]

end Dialogue

namespace Talk

variable {near far : Verdict} {allowed : Dialogue → Prop} {start d : Dialogue} {asked answered : Nat}

/-- Where both follow, and each announcement of an outsider leaves the dialogue settling,
it takes at most three answers to each. -/
theorem settled (near_follows : Follows near) (far_follows : Follows far) (quiet : start.Quiet)
    (talk : Talk near far Dialogue.Settling start d asked answered) :
    d.Settling ∧ answered + d.potential ≤ 3 * asked := by
  induction talk with
  | start => exact ⟨Dialogue.settling_quiet quiet, Nat.le_of_eq (by rw [Dialogue.potential_quiet quiet])⟩
  | hear _ ih =>
    obtain ⟨settling, bound⟩ := ih
    have step := Dialogue.potential_hear near_follows settling
    exact ⟨(Dialogue.settling_hear near_follows).mpr settling, by omega⟩
  | @hearFar d _ _ _ ih =>
    obtain ⟨settling, bound⟩ := ih
    rw [← Dialogue.settling_swap] at settling
    have step := Dialogue.potential_hear far_follows settling
    rw [d.potential_swap] at step
    refine ⟨?_, ?_⟩
    · rw [Dialogue.settling_swap, Dialogue.settling_hear far_follows]
      exact settling
    · rw [Dialogue.potential_swap]
      omega
  | ask m _ settling ih | askFar m _ settling ih =>
    have fresh := Dialogue.potential_le settling
    exact ⟨settling, by omega⟩

end Talk

namespace Dialogue

def Insisted (answer : Bool) (d : Dialogue) : Prop := d.near.held = none ∨ d.near.held = some answer

/-- How many answers are left: one for each announcement to the far party, and where the
near party has yet to insist, that and the answer to it. -/
def insistBound (d : Dialogue) : Nat := d.far.inbox.length + if d.near.held = none ∧ ¬ d.Quiet then 2 else 0

variable {d : Dialogue} {verdict : Verdict} {answer : Bool}

theorem insisted_hear (insists : Insists answer verdict) (insisted : d.Insisted answer) :
    (d.hear verdict).Insisted answer := by
  cases inbox : d.near.inbox with
  | nil => rwa [(hear_empty inbox verdict).1]
  | cons asked rest =>
    have no := insists d.near.held asked
    by_cases same : d.near.held = some (verdict d.near.held asked)
    · rw [(hear_same verdict inbox same).1]
      exact insisted
    · rw [(hear_other verdict inbox same).1, no]
      exact .inr rfl

theorem insistBound_le (d : Dialogue) : d.insistBound ≤ d.far.inbox.length + 2 := by
  unfold insistBound
  split_ifs <;> omega

theorem le_insistBound (d : Dialogue) : d.far.inbox.length ≤ d.insistBound := Nat.le_add_right _ _

theorem insistBound_unasked (unasked : d.near.held = none) (busy : ¬ d.Quiet) :
    d.insistBound = d.far.inbox.length + 2 := by
  rw [insistBound, if_pos ⟨unasked, busy⟩]

theorem insistBound_asked (asked : d.near.held ≠ none) : d.insistBound = d.far.inbox.length := by
  rw [insistBound, if_neg fun both => asked both.1, Nat.add_zero]

theorem insistBound_hear (insists : Insists answer verdict) (insisted : d.Insisted answer) :
    d.answers verdict + (d.hear verdict).insistBound ≤ d.insistBound := by
  cases inbox : d.near.inbox with
  | nil =>
    obtain ⟨next, answered⟩ := hear_empty inbox verdict
    rw [next]
    omega
  | cons asked rest =>
    have no := insists d.near.held asked
    rcases insisted with unasked | already
    · -- the answer it insists on, and the announcement of it
      obtain ⟨next, answered⟩ := hear_other verdict inbox (by rw [unasked]; nofun)
      have pre := insistBound_unasked unasked fun quiet => by simp [quiet.1] at inbox
      rw [next, answered, pre, insistBound_asked (by nofun)]
      simp only [Party.ask, List.length_append, List.length_singleton]
      omega
    · obtain ⟨next, answered⟩ := hear_same verdict inbox (by rw [no]; exact already)
      have pre := insistBound_asked (d := d) (by rw [already]; nofun)
      have after := insistBound_asked (d := d.hear verdict) (by rw [next, already]; nofun)
      rw [answered, pre, after, next]
      exact Nat.le_of_eq (Nat.zero_add _)

theorem insistBound_hearFar (d : Dialogue) (verdict : Verdict) :
    d.swap.answers verdict + (d.swap.hear verdict).swap.insistBound ≤ d.insistBound := by
  cases inbox : d.far.inbox with
  | nil =>
    obtain ⟨next, answered⟩ := hear_empty (d := d.swap) inbox verdict
    rw [next, swap_swap]
    omega
  | cons asked rest =>
    have shorter : (d.swap.hear verdict).swap.far.inbox.length + 1 = d.far.inbox.length ∧
        (d.swap.hear verdict).swap.near.held = d.near.held ∧ d.swap.answers verdict ≤ 1 := by
      by_cases same : d.far.held = some (verdict d.far.held asked)
      · obtain ⟨next, answered⟩ := hear_same (d := d.swap) verdict inbox same
        rw [next, answered, inbox]
        exact ⟨rfl, rfl, Nat.zero_le 1⟩
      · obtain ⟨next, answered⟩ := hear_other (d := d.swap) verdict inbox same
        rw [next, answered, inbox]
        exact ⟨rfl, rfl, Nat.le_refl 1⟩
    obtain ⟨shorter, held, answered⟩ := shorter
    by_cases unasked : d.near.held = none
    · have pre := insistBound_unasked unasked fun quiet => by simp [quiet.2] at inbox
      have after := (d.swap.hear verdict).swap.insistBound_le
      omega
    · have pre := insistBound_asked unasked
      have after := insistBound_asked (held ▸ unasked)
      omega

theorem insistBound_ask (d : Dialogue) (m : Bool) : (d.ask m).insistBound ≤ d.insistBound + 3 := by
  have after : (d.ask m).insistBound ≤ d.far.inbox.length + 2 := (d.ask m).insistBound_le
  have pre := d.le_insistBound
  omega

theorem insistBound_askFar (d : Dialogue) (m : Bool) : (d.swap.ask m).swap.insistBound ≤ d.insistBound + 3 := by
  have after := (d.swap.ask m).swap.insistBound_le
  have longer : (d.swap.ask m).swap.far.inbox.length = d.far.inbox.length + 1 := List.length_append
  have pre := d.le_insistBound
  omega

theorem insisted_hearFar (d : Dialogue) (verdict : Verdict) (insisted : d.Insisted answer) :
    (d.swap.hear verdict).swap.Insisted answer := by
  unfold Insisted
  rwa [swap_near, hear_far_held]

end Dialogue

theorem Talk.swap {near far : Verdict} {allowed : Dialogue → Prop} {start d : Dialogue} {asked answered : Nat}
    (talk : Talk near far allowed start d asked answered) :
    Talk far near (fun d => allowed d.swap) start.swap d.swap asked answered := by
  induction talk with
  | start => exact .start
  | hear _ ih => exact .hearFar ih
  | hearFar _ ih => exact .hear ih
  | ask m _ fine ih => exact .askFar m ih fine
  | askFar m _ fine ih => exact .ask m ih fine

theorem Talk.insisted {answer : Bool} {near far : Verdict} {allowed : Dialogue → Prop} {start d : Dialogue}
    {asked answered : Nat}
    (insists : Insists answer near) (quiet : start.Quiet) (fresh : start.Insisted answer)
    (talk : Talk near far allowed start d asked answered) :
      d.Insisted answer ∧ answered + d.insistBound ≤ 3 * asked := by
  induction talk with
  | start => exact ⟨fresh, by simp [Dialogue.insistBound, quiet, quiet.2]⟩
  | hear _ ih =>
    obtain ⟨insisted, bound⟩ := ih
    have step := Dialogue.insistBound_hear insists insisted
    exact ⟨Dialogue.insisted_hear insists insisted, by omega⟩
  | @hearFar d _ _ _ ih =>
    obtain ⟨insisted, bound⟩ := ih
    have step := d.insistBound_hearFar far
    exact ⟨Dialogue.insisted_hearFar d far insisted, by omega⟩
  | @ask d _ _ m _ _ ih =>
    have step := d.insistBound_ask m
    exact ⟨ih.1, by omega⟩
  | @askFar d _ _ m _ _ ih =>
    have step := d.insistBound_askFar m
    exact ⟨ih.1, by omega⟩

theorem Talk.mono {near far : Verdict} {allowed wider : Dialogue → Prop} {start d : Dialogue} {asked answered : Nat}
    (wide : ∀ d, allowed d → wider d) (talk : Talk near far allowed start d asked answered) :
    Talk near far wider start d asked answered := by
  induction talk with
  | start => exact .start
  | hear _ ih => exact .hear ih
  | hearFar _ ih => exact .hearFar ih
  | ask m _ fine ih => exact .ask m ih (wide _ fine)
  | askFar m _ fine ih => exact .askFar m ih (wide _ fine)

abbrev Undisturbed (near far : Verdict) (start d : Dialogue) (answered : Nat) : Prop :=
  Talk near far (fun _ => False) start d 0 answered

/-- Whatever is heard, one of the two keeps an announcement that it will have to answer. -/
structure Endless (near far : Verdict) (alive : Dialogue → Prop) : Prop where
  hear : ∀ {d}, alive d → alive (d.hear near)
  hearFar : ∀ {d}, alive d → alive (d.swap.hear far).swap
  owes : ∀ {d}, alive d →
    (∀ d', Undisturbed near far d d' 0 → d'.near.inbox ≠ []) ∨
      (∀ d', Undisturbed near far d d' 0 → d'.far.inbox ≠ [])

theorem Endless.keeps {near far : Verdict} {alive : Dialogue → Prop} (endless : Endless near far alive)
    {start d : Dialogue} {asked answered : Nat} (begins : alive start)
    (talk : Talk near far (fun _ => False) start d asked answered) : alive d := by
  induction talk with
  | start => exact begins
  | hear _ ih => exact endless.hear ih
  | hearFar _ ih => exact endless.hearFar ih
  | ask _ _ fine | askFar _ _ fine => exact fine.elim

theorem hear_silent {verdict : Verdict} {d : Dialogue} (silent : d.answers verdict = 0) :
    (d.hear verdict).far = d.far := by
  cases inbox : d.near.inbox with
  | nil => rw [(Dialogue.hear_empty inbox verdict).1]
  | cons asked rest =>
    by_cases same : d.near.held = some (verdict d.near.held asked)
    · rw [(Dialogue.hear_same verdict inbox same).1]
    · rw [(Dialogue.hear_other verdict inbox same).2] at silent
      cases silent

theorem Talk.unanswered {near far : Verdict} (near_follows : Follows near) (far_follows : Follows far)
    {start d : Dialogue} {asked answered : Nat} (talk : Talk near far (fun _ => False) start d asked answered)
    (silent : answered = 0) :
    d.near.pending.length = start.near.pending.length ∧ d.far.pending.length = start.far.pending.length := by
  induction talk with
  | start => exact ⟨rfl, rfl⟩
  | @hear d _ _ _ ih =>
    have fewer := Dialogue.pending_hear (d := d) near_follows
    rw [hear_silent (by omega)]
    omega
  | @hearFar d _ _ _ ih =>
    have fewer := Dialogue.pending_hear (d := d.swap) far_follows
    have same : (d.swap.hear far).swap.near = d.near := hear_silent (by omega)
    rw [same]
    rw [Dialogue.swap_near] at fewer
    rw [Dialogue.swap_far]
    omega
  | ask _ _ fine | askFar _ _ fine => exact fine.elim

/-- Where both follow, a dialogue that is not settling never ends. -/
theorem endless_unsettled {near far : Verdict} (near_follows : Follows near) (far_follows : Follows far) :
    Endless near far (¬ Dialogue.Settling ·) where
  hear alive settling := alive ((Dialogue.settling_hear near_follows).mp settling)
  hearFar {d} alive settling := by
    rw [Dialogue.settling_swap, Dialogue.settling_hear far_follows, Dialogue.settling_swap] at settling
    exact alive settling
  owes {d} alive := by
    have busy : d.near.pending ≠ [] ∨ d.far.pending ≠ [] := by
      by_contra idle
      push Not at idle
      exact alive (by simp [Dialogue.Settling, idle.1, idle.2])
    rcases busy with near_busy | far_busy
    · left
      intro d' talk empty
      have kept := (talk.unanswered near_follows far_follows rfl).1
      rw [Party.pending, empty] at kept
      exact near_busy (List.length_eq_zero_iff.mp kept.symm)
    · right
      intro d' talk empty
      have kept := (talk.unanswered near_follows far_follows rfl).2
      rw [Party.pending, empty] at kept
      exact far_busy (List.length_eq_zero_iff.mp kept.symm)

def Contradicts (verdict : Verdict) : Prop := ∀ held asked, verdict held asked = !asked

/-- One announcement goes round between a party that contradicts and one that follows. -/
def Circling (d : Dialogue) : Prop :=
  ∃ m, d.near.held ≠ some (!m) ∧
    (d.near.inbox = [] ∧ d.far.inbox = [m] ∧ d.far.held ≠ some m ∨
      d.near.inbox = [m] ∧ d.far.inbox = [] ∧ d.far.held = some m)

namespace Circling

variable {near far : Verdict} {d : Dialogue}

theorem hear (contradicts : Contradicts near) (circling : Circling d) :
    Circling (d.hear near) ∧ (d.answers near = 0 → d.hear near = d) := by
  obtain ⟨m, held, ⟨near_empty, far_one, other⟩ | ⟨near_one, far_empty, same⟩⟩ := circling
  · rw [(Dialogue.hear_empty near_empty near).1]
    exact ⟨⟨m, held, .inl ⟨near_empty, far_one, other⟩⟩, fun _ => rfl⟩
  · have next := contradicts d.near.held m
    obtain ⟨heard, answers⟩ := Dialogue.hear_other near near_one (by rwa [next])
    rw [heard, answers, next]
    refine ⟨⟨!m, by simp, .inl ⟨rfl, by simp [Party.ask, far_empty], ?_⟩⟩, nofun⟩
    simp [Party.ask, same]

theorem hearFar (follows : Follows far) (circling : Circling d) :
    Circling (d.swap.hear far).swap ∧ (d.swap.answers far = 0 → (d.swap.hear far).swap = d) := by
  obtain ⟨m, held, ⟨near_empty, far_one, other⟩ | ⟨near_one, far_empty, same⟩⟩ := circling
  · obtain ⟨heard, answers⟩ := Dialogue.hear_follows (d := d.swap) follows far_one other
    rw [heard, answers]
    exact ⟨⟨m, held, .inr ⟨by simp [Party.ask, near_empty], rfl, rfl⟩⟩, nofun⟩
  · rw [(Dialogue.hear_empty (d := d.swap) far_empty far).1]
    exact ⟨⟨m, held, .inr ⟨near_one, far_empty, same⟩⟩, fun _ => rfl⟩

theorem unanswered (contradicts : Contradicts near) (follows : Follows far) {start : Dialogue} {asked answered : Nat}
    (circling : Circling start) (talk : Talk near far (fun _ => False) start d asked answered) (silent : answered = 0) :
    d = start := by
  induction talk with
  | start => rfl
  | hear _ ih =>
    obtain rfl := ih (by omega)
    exact (circling.hear contradicts).2 (by omega)
  | hearFar _ ih =>
    obtain rfl := ih (by omega)
    exact (circling.hearFar follows).2 (by omega)
  | ask _ _ fine | askFar _ _ fine => exact fine.elim

end Circling

theorem endless_circling {near far : Verdict} (contradicts : Contradicts near) (follows : Follows far) :
    Endless near far Circling where
  hear circling := (circling.hear contradicts).1
  hearFar circling := (circling.hearFar follows).1
  owes {d} circling := by
    have ⟨m, _, place⟩ := circling
    rcases place with ⟨_, far_one, _⟩ | ⟨near_one, _⟩
    · right
      intro d' talk
      rw [circling.unanswered contradicts follows talk rfl, far_one]
      nofun
    · left
      intro d' talk
      rw [circling.unanswered contradicts follows talk rfl, near_one]
      nofun

end NexTerminal.Library.Announce
