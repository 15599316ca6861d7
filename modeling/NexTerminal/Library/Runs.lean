import Mathlib.Data.List.Induction
import Mathlib.Data.List.Basic

namespace NexTerminal.Library

variable {σ α : Type*} {step : σ → α → σ} {slips : σ → α → Bool} {start : σ} {acts : List α}

def Avoids (step : σ → α → σ) (slips : σ → α → Bool) (start : σ) (acts : List α) : Prop :=
  ∀ before act after, acts = before ++ act :: after → slips (before.foldl step start) act = false

theorem Avoids.left {before after : List α} (avoids : Avoids step slips start (before ++ after)) :
    Avoids step slips start before :=
  fun first act last split => avoids first act (last ++ after) (by rw [split, List.append_assoc, List.cons_append])

theorem Avoids.invariant {P : σ → Prop} (avoids : Avoids step slips start acts) (initial : P start)
    (each : ∀ state act, P state → slips state act = false → P (step state act)) : P (acts.foldl step start) := by
  induction acts using List.reverseRecOn with
  | nil => exact initial
  | append_singleton acts act ih =>
    rw [List.foldl_append, List.foldl_cons, List.foldl_nil]
    exact each _ _ (ih avoids.left) (avoids acts act [] rfl)

theorem avoids_of_each (each : ∀ k : Fin acts.length, slips ((acts.take k).foldl step start) (acts.get k) = false) :
    Avoids step slips start acts := by
  intro pre act after split
  subst split
  have here := each ⟨pre.length, by simp⟩
  simpa using here

variable {σ ι ο : Type*}

/-- A system: what one input does to a state, and when the input happens. -/
structure TimedSystem (σ ι ο : Type*) where
  step : σ → ι → σ × List ο
  clock : ι → Nat

structure Event (σ ι : Type*) where
  before : σ
  input : ι

namespace TimedSystem

variable (system : TimedSystem σ ι ο)

def outputs (event : Event σ ι) : List ο := (system.step event.before event.input).2

def after (event : Event σ ι) : σ := (system.step event.before event.input).1

/-- The runs from one state and clock reading, newest event last. -/
inductive Run (initial : σ) (since : Nat) : List (Event σ ι) → σ → Nat → Prop
  | start : Run initial since [] initial since
  | next {events state time} (input : ι) : Run initial since events state time →
      time ≤ system.clock input →
      Run initial since (events ++ [⟨state, input⟩]) (system.step state input).1 (system.clock input)

variable {system} {initial state : σ} {since time : Nat} {events : List (Event σ ι)}

theorem Run.invariant (run : system.Run initial since events state time) (Safe : Event σ ι → Prop)
    (Invariant : σ → Nat → Prop) (base : Invariant initial since)
    (mono : ∀ s t t', t ≤ t' → Invariant s t → Invariant s t')
    (step : ∀ event, Safe event → Invariant event.before (system.clock event.input) →
      Invariant (system.after event) (system.clock event.input)) (safe : ∀ event ∈ events, Safe event) :
    Invariant state time := by
  induction run with
  | start => exact base
  | @next events state time input prev later ih =>
    have pre := ih fun event mem => safe event (List.mem_append_left _ mem)
    exact step ⟨state, input⟩ (safe _ (by simp)) (mono _ _ _ later pre)

theorem Run.split {first last : List (Event σ ι)} {event : Event σ ι}
    (run : system.Run initial since (first ++ event :: last) state time) :
    ∃ reached, system.Run initial since first event.before reached ∧
      reached ≤ system.clock event.input ∧
      system.Run (system.after event) (system.clock event.input) last state time := by
  generalize whole : first ++ event :: last = all at run
  induction run generalizing last with
  | start => simp at whole
  | @next events state time input prev later ih =>
    rcases List.eq_nil_or_concat last with empty | ⟨front, newest, rfl⟩
    · subst empty
      obtain ⟨rfl, same⟩ := List.append_inj' whole rfl
      cases same
      exact ⟨time, prev, later, .start⟩
    · rw [List.concat_eq_append, ← List.cons_append, ← List.append_assoc] at whole
      obtain ⟨cut, same⟩ := List.append_inj' whole rfl
      cases same
      obtain ⟨reached, pre, bound, rest⟩ := ih cut
      exact ⟨reached, pre, bound, by simpa using rest.next input later⟩

variable (system)

def history : σ → List ι → List (Event σ ι)
  | _, [] => []
  | state, input :: rest => ⟨state, input⟩ :: history (system.step state input).1 rest

def final : σ → List ι → σ
  | state, [] => state
  | state, input :: rest => final (system.step state input).1 rest

def finish : Nat → List ι → Nat
  | time, [] => time
  | _, input :: rest => finish (system.clock input) rest

theorem history_append (state : σ) (first rest : List ι) :
    system.history state (first ++ rest) =
      system.history state first ++ system.history (system.final state first) rest := by
  induction first generalizing state with
  | nil => rfl
  | cons input first ih => simp [history, final, ih]

theorem final_append (state : σ) (first rest : List ι) :
    system.final state (first ++ rest) = system.final (system.final state first) rest := by
  induction first generalizing state with
  | nil => rfl
  | cons input first ih => exact ih (system.step state input).1

/-- The inputs come at nondecreasing times, none before the given one. -/
def Ordered : Nat → List ι → Prop
  | _, [] => True
  | time, input :: rest => time ≤ system.clock input ∧ Ordered (system.clock input) rest

instance decidableOrdered : (time : Nat) → (inputs : List ι) → Decidable (system.Ordered time inputs)
  | _, [] => inferInstanceAs (Decidable True)
  | time, input :: rest =>
    have := decidableOrdered (system.clock input) rest
    inferInstanceAs (Decidable (time ≤ system.clock input ∧ system.Ordered (system.clock input) rest))

variable {system}

/-- A run goes on with any inputs whose times are in order. -/
theorem Run.play (run : system.Run initial since events state time) (inputs : List ι)
    (ordered : system.Ordered time inputs) :
    system.Run initial since (events ++ system.history state inputs) (system.final state inputs)
      (system.finish time inputs) := by
  induction inputs generalizing events state time with
  | nil => simpa [history, final, finish] using run
  | cons input rest ih =>
    have played := ih (run.next input ordered.1) ordered.2
    rw [List.append_assoc] at played
    exact played

end TimedSystem

end NexTerminal.Library
