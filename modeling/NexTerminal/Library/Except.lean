namespace NexTerminal.Library

variable {ε α β : Type}

/-- A success of two steps is a success of each. -/
theorem bind_eq_ok {first : Except ε α} {next : α → Except ε β} {result : β}
    (run : first >>= next = .ok result) : ∃ a, first = .ok a ∧ next a = .ok result := by
  cases first with
  | error msg => cases run
  | ok a => exact ⟨a, rfl, run⟩

theorem ok_of_toBool {ε α : Type} {res : Except ε α} (good : res.toBool = true) : ∃ a, res = .ok a := by
  cases res with
  | error msg => cases good
  | ok a => exact ⟨a, rfl⟩

theorem ok_bind (a : α) (next : α → Except ε β) : (Except.ok a >>= next) = next a := rfl

theorem toOption_bind (first : Except ε α) (next : α → Except ε β) :
    (first >>= next).toOption = first.toOption >>= fun a => (next a).toOption := by
  cases first <;> rfl

theorem toOption_mapM (each : α → Except ε β) (items : List α) :
    (items.mapM each).toOption = items.mapM fun a => (each a).toOption := by
  induction items with
  | nil => rfl
  | cons a rest ih =>
    rw [List.mapM_cons, List.mapM_cons, toOption_bind, ← ih]
    congr 1
    funext b
    rw [toOption_bind]
    rfl

theorem stateT_bind_eq_ok {σ ε α β : Type} {first : StateT σ (Except ε) α}
    {next : α → StateT σ (Except ε) β}
    {start : σ} {result : β × σ} (run : (first >>= next).run start = .ok result) :
    ∃ a mid, first.run start = .ok (a, mid) ∧ (next a).run mid = .ok result := by
  obtain ⟨⟨a, mid⟩, ran, rest⟩ := bind_eq_ok run
  exact ⟨a, mid, ran, rest⟩

end NexTerminal.Library
