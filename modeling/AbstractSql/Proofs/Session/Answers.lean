import AbstractSql.Engine
import AbstractSql.Proofs.Outcome
import Mathlib

/-!
# What a session answers

A script lays down beforehand what a server answers and when the caller wishes to stop. Each primitive
step of a run appends its question to the record and returns the scripted answer. The answers to units
are counted from the next one, so that executing a unit moves all of them by one place.
-/

namespace AbstractSql

namespace Session

/-- What is answered when the unit of the given number, counted from the next one, is executed. -/
def answer (s : Session) (i : Nat) : Except Failure UInt64 := s.script.results[i]?.getD (.ok 1)

/-- Rows affected by the unit of the given number; a unit that fails counts as none. -/
def rows (s : Session) (i : Nat) : Nat :=
  match s.answer i with
  | .ok rows => rows.toNat
  | .error _ => 0

/-- Rows affected by the next `n` units together. -/
def affected (s : Session) (n : Nat) : Nat := ((List.range n).map s.rows).sum

/-- The check in front of the unit of the given number sees the wish to stop: it was there from the
start, or came while one of the units in between was executed. -/
def StopSeen (s : Session) (i : Nat) : Prop :=
  s.cancelled = true ∨
    ∃ k, s.script.cancelAt = some k ∧ s.executions < k ∧ k ≤ s.executions + i

instance (s : Session) (i : Nat) : Decidable (s.StopSeen i) :=
  decidable_of_iff
    (s.cancelled = true ∨
      ∃ k ∈ s.script.cancelAt, s.executions < k ∧ k ≤ s.executions + i) Iff.rfl

/-- The session once the next unit has been executed. -/
def executed (s : Session) (u : ExecutionUnit) : Session :=
  { s with
    events := s.events ++ [.execute u]
    executions := s.executions + 1
    cancelled := s.cancelled || s.script.cancelAt == some (s.executions + 1)
    script := { s.script with results := s.script.results.tail } }

/-- The session with one more log record. -/
def logged (s : Session) (record : LogRecord) : Session := { s with log := s.log ++ [record] }

/-- The session with one more question. -/
def asked (s : Session) (event : SessionEvent) : Session := { s with events := s.events ++ [event] }

variable (s : Session) (u : ExecutionUnit) (record : LogRecord) (event : SessionEvent) (i : Nat)

@[simp] theorem logged_events : (s.logged record).events = s.events := rfl

@[simp] theorem logged_script : (s.logged record).script = s.script := rfl

@[simp] theorem asked_events : (s.asked event).events = s.events ++ [event] := rfl

@[simp] theorem executed_events : (s.executed u).events = s.events ++ [.execute u] := rfl

/-- The next unit takes the next answer. -/
@[simp] theorem answer_executed : (s.executed u).answer i = s.answer (i + 1) := by
  simp [answer, executed]

@[simp] theorem rows_executed : (s.executed u).rows i = s.rows (i + 1) := by simp [rows]

/-- The rows of the next unit come before those of the units after it. -/
theorem affected_succ (n : Nat) : s.affected (n + 1) = s.rows 0 + (s.executed u).affected n := by
  have hr : (s.executed u).rows = fun i => s.rows (i + 1) := funext fun i => s.rows_executed u i
  rw [affected, List.range_succ_eq_map, List.map_cons, List.map_map, List.sum_cons, affected, hr]
  rfl

/-- A check after the next unit sees the wish to stop as it does now, one unit further on. -/
@[simp] theorem stopSeen_executed : (s.executed u).StopSeen i ↔ s.StopSeen (i + 1) := by
  simp only [StopSeen, executed, Bool.or_eq_true, beq_iff_eq]
  constructor
  · rintro ((hc | hk) | ⟨k, hk, hl, hu⟩)
    · exact .inl hc
    · exact .inr ⟨_, hk, by omega, by omega⟩
    · exact .inr ⟨k, hk, by omega, by omega⟩
  · rintro (hc | ⟨k, hk, hl, hu⟩)
    · exact .inl (.inl hc)
    · by_cases he : k = s.executions + 1
      · exact .inl (.inr (he ▸ hk))
      · exact .inr ⟨k, hk, by omega, by omega⟩

/-- The check in front of the next unit looks at the wish to stop as it stands. -/
theorem stopSeen_zero : s.StopSeen 0 ↔ s.cancelled = true := by
  constructor
  · rintro (hc | ⟨k, -, hl, hu⟩)
    · exact hc
    · omega
  · exact .inl

end Session

namespace Running

variable (s : Session)

/-- A question is recorded first, and then it fails if the script says so. -/
theorem outcome_ask (event : SessionEvent) (failure : Script → Option Failure) :
    outcome (ask event failure) s =
      ((failure s.script).elim (.ok ⟨⟩) .error, s.asked event) := by
  simp only [ask, outcome_bind, outcome_modify, outcome_get]
  cases failure s.script <;> rfl

/-- Writing a log record. -/
theorem outcome_log (record : LogRecord) : outcome (log record) s = (.ok ⟨⟩, s.logged record) := rfl

/-- Executing a unit returns the next answer. -/
theorem outcome_execute (u : ExecutionUnit) :
    outcome (execute u) s = (s.answer 0, s.executed u) := by
  simp only [execute, outcome_bind, outcome_ask, Option.elim_none, outcome_get, outcome_set,
    Session.answer, Session.executed, Session.asked]
  rcases s.script.results with _ | ⟨_ | _, _⟩ <;> rfl

/-- Taking the outcome of a step does not fail. -/
theorem outcome_attempt {α : Type} (step : Running α) :
    outcome (attempt step) s = (.ok (outcome step s).1, (outcome step s).2) := rfl

end Running

end AbstractSql
