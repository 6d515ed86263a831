/-!
Outcomes of computations that can fail: when the result of one that is carried on, or whose errors
are reworded, is known, and what becomes of a list of them.
-/

namespace PhpGate

theorem mapError_error {ε ε' α : Type} (f : ε → ε') (error : ε) :
    (Except.error error : Except ε α).mapError f = .error (f error) := rfl

theorem mapError_ok {ε ε' α : Type} (f : ε → ε') (a : α) :
    (Except.ok a : Except ε α).mapError f = .ok a := rfl

theorem mapError_eq_ok_iff {ε ε' α : Type} {outcome : Except ε α} {x : α} (f : ε → ε') :
    outcome.mapError f = .ok x ↔ outcome = .ok x := by
  cases outcome <;> simp [mapError_error, mapError_ok]

theorem toOption_eq_some_iff {ε α : Type} {outcome : Except ε α} {x : α} :
    outcome.toOption = some x ↔ outcome = .ok x := by
  cases outcome <;> simp [Except.toOption]

theorem bind_eq_ok_iff {ε α β : Type} {outcome : Except ε α} {next : α → Except ε β} {y : β} :
    outcome >>= next = .ok y ↔ ∃ x, outcome = .ok x ∧ next x = .ok y := by
  cases outcome <;> simp [bind, Except.bind]

section Lists

variable {α β ε : Type} {f : α → Except ε β} {xs : List α}

theorem mapM_eq_ok {g : α → β} (all : ∀ x ∈ xs, f x = .ok (g x)) : xs.mapM f = .ok (xs.map g) := by
  induction xs with
  | nil => rfl
  | cons x xs ih =>
      obtain ⟨here, later⟩ := List.forall_mem_cons.mp all
      rw [List.mapM_cons, here, ih later]
      rfl

theorem exists_mapM_eq_error (some : ∃ x ∈ xs, ∃ e, f x = .error e) :
    ∃ x ∈ xs, ∃ e, f x = .error e ∧ xs.mapM f = .error e := by
  induction xs with
  | nil =>
      obtain ⟨x, mem, -⟩ := some
      cases mem
  | cons x xs ih =>
      cases here : f x with
      | error e => exact ⟨x, List.mem_cons_self, e, here, by rw [List.mapM_cons, here]; rfl⟩
      | ok y =>
          obtain ⟨z, mem, failed⟩ : ∃ z ∈ xs, ∃ e, f z = .error e := by
            obtain ⟨z, mem, e, failed⟩ := some
            obtain rfl | mem := List.mem_cons.mp mem
            · rw [here] at failed
              cases failed
            · exact ⟨z, mem, e, failed⟩
          obtain ⟨z, mem, e, failed, whole⟩ := ih ⟨z, mem, failed⟩
          exact ⟨z, List.mem_cons_of_mem x mem, e, failed, by rw [List.mapM_cons, here, whole]; rfl⟩

end Lists

end PhpGate
