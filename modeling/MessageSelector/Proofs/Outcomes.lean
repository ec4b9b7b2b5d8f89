/-!
# Steps that may fail

One step after another succeeds when each does, and fails where the first of them does.
-/

namespace MessageSelector

variable {ε δ α β : Type}

/-- Steps one after the other succeed when each of them does. -/
theorem bind_ok_iff (step : Except ε α) (next : α → Except ε β) (result : β) :
    (step >>= next) = .ok result ↔ ∃ part, step = .ok part ∧ next part = .ok result := by
  cases step with
  | error fault => exact ⟨nofun, fun ⟨_, h, _⟩ => nomatch h⟩
  | ok part => exact ⟨fun h => ⟨part, rfl, h⟩, fun ⟨_, rfl, h⟩ => h⟩

/-- Steps one after the other fail when the first does, or the second after it. -/
theorem bind_error_iff (step : Except ε α) (next : α → Except ε β) (fault : ε) :
    (step >>= next) = .error fault ↔
      step = .error fault ∨ ∃ part, step = .ok part ∧ next part = .error fault := by
  cases step with
  | error other =>
      change Except.error other = Except.error fault ↔ _
      simp
  | ok part =>
      change next part = .error fault ↔ _
      simp

/-- A fault is told in another way after each step or after both. -/
theorem map_error_bind (tell : ε → δ) (step : Except ε α) (next : α → Except ε β) :
    (step >>= next).mapError tell =
      step.mapError tell >>= fun part => (next part).mapError tell := by
  cases step <;> rfl

end MessageSelector
