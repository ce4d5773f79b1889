/-!
Answers that may be refused: what a chain of them went through if it ended well.
-/
namespace SpawnGuard

variable {ε α β : Type}

theorem bind_eq_ok {first : Except ε α} {next : α → Except ε β} {last : β}
    (done : first >>= next = .ok last) : ∃ value, first = .ok value ∧ next value = .ok last := by
  cases first with
  | error fault => cases done
  | ok value => exact ⟨value, rfl, done⟩

theorem map_eq_ok {answer : Except ε α} {change : α → β} {last : β}
    (done : answer.map change = .ok last) : ∃ value, answer = .ok value ∧ change value = last := by
  cases answer with
  | error fault => cases done
  | ok value =>
    cases done
    exact ⟨value, rfl, rfl⟩

theorem map_eq_error {answer : Except ε α} {change : α → β} {fault : ε} :
    answer.map change = .error fault ↔ answer = .error fault := by
  cases answer <;> simp [Except.map]

end SpawnGuard
