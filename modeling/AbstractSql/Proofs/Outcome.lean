import AbstractSql.Statement

/-!
# Outcomes of steps

Translating and naming are steps that may fail and leave a state in either case. The outcome of a
step composed of two is read off the outcomes of both, so that later proofs take a step apart
without unfolding the monad.
-/

namespace AbstractSql

variable {ε σ α β : Type}

/-- A mapped result is there exactly when the result is. -/
theorem map_eq_ok {result : Except ε α} {f : α → β} {b : β} :
    result.map f = .ok b ↔ ∃ a, result = .ok a ∧ f a = b := by
  cases result <;> simp [Except.map]

/-- What a step returns from a state, and the state it leaves. -/
def outcome (step : ExceptT ε (StateM σ) α) (s : σ) : Except ε α × σ := step.run.run s

/-- A composed step stops at the first failure and otherwise goes on from the state it left. -/
theorem outcome_bind (first : ExceptT ε (StateM σ) α) (next : α → ExceptT ε (StateM σ) β) (s : σ) :
    outcome (first >>= next) s =
      match outcome first s with
      | (.ok a, t) => outcome (next a) t
      | (.error e, t) => (.error e, t) := by
  simp only [outcome, ExceptT.run_bind, StateT.run_bind]
  rcases first.run.run s with ⟨_ | _, _⟩ <;> rfl

/-- A step that only returns leaves the state alone. -/
@[simp] theorem outcome_pure (a : α) (s : σ) :
    outcome (pure a : ExceptT ε (StateM σ) α) s = (.ok a, s) := rfl

/-- A step that only fails leaves the state alone. -/
@[simp] theorem outcome_throw (e : ε) (s : σ) :
    outcome (throw e : ExceptT ε (StateM σ) α) s = (.error e, s) := rfl

/-- Reading the state. -/
@[simp] theorem outcome_get (s : σ) :
    outcome (get : ExceptT ε (StateM σ) σ) s = (.ok s, s) := rfl

/-- Replacing the state. -/
@[simp] theorem outcome_set (s t : σ) :
    outcome (set t : ExceptT ε (StateM σ) PUnit) s = (.ok ⟨⟩, t) := rfl

/-- Changing the state. -/
@[simp] theorem outcome_modify (f : σ → σ) (s : σ) :
    outcome (modify f : ExceptT ε (StateM σ) PUnit) s = (.ok ⟨⟩, f s) := rfl

/-- A step that only returns succeeds with what it returns and leaves the state alone. -/
theorem outcome_pure_eq_ok {a b : α} {s t : σ} :
    outcome (pure a : ExceptT ε (StateM σ) α) s = (.ok b, t) ↔ a = b ∧ s = t := by
  rw [outcome_pure, Prod.mk.injEq, Except.ok.injEq]

/-- A composed step succeeds exactly when both of its parts do. -/
theorem outcome_bind_eq_ok {first : ExceptT ε (StateM σ) α} {next : α → ExceptT ε (StateM σ) β}
    {s t : σ} {b : β} :
    outcome (first >>= next) s = (.ok b, t) ↔
      ∃ a r, outcome first s = (.ok a, r) ∧ outcome (next a) r = (.ok b, t) := by
  rw [outcome_bind]
  constructor
  · intro h
    rcases hf : outcome first s with ⟨e | a, r⟩
    · simp [hf] at h
    · exact ⟨a, r, rfl, by simpa only [hf] using h⟩
  · rintro ⟨a, r, hf, hn⟩
    simp only [hf, hn]

end AbstractSql
