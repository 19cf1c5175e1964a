import AbstractSql.Proofs.Session.Answers

/-!
# How a run of units ends

The units of a plan run in order until one of them fails, the caller wishes to stop, or, in a
transaction, a unit that had to affect rows affects none. `Session.ending` reads off the answers of a
session where that is. The main statement says that running units asks for exactly these units and ends
that way.
-/

namespace AbstractSql

/-- How a run of units ends. -/
inductive UnitsEnd where
  /-- All have run. -/
  | finished
  /-- The last one had to affect rows and affected none. -/
  | noRows
  /-- The last one failed. -/
  | failed (failure : Failure)
  /-- The caller wished to stop. -/
  | cancelled

/-- What is returned at such an end, after `executed` of `total` units and this many rows. -/
def UnitsEnd.units (total executed : Nat) (affected : UInt64) :
    UnitsEnd → Except Failure UnitsOutcome
  | finished => .ok (.finished affected)
  | noRows => .ok .noRows
  | failed failure => .error failure
  | cancelled => .error (.cancelled executed total)

namespace Session

variable {s t : Session} {inTransaction : Bool} {units : List ExecutionUnit} {u : ExecutionUnit}

/-- The unit of the given number runs, and others may run after it. -/
structure Passes (s : Session) (inTransaction : Bool) (i : Nat) (u : ExecutionUnit) : Prop where
  /-- The check in front of it sees no wish to stop. -/
  unstopped : ¬ s.StopSeen i
  /-- It does not fail, and in a transaction it affects rows if it must. -/
  answered : ∃ rows, s.answer i = .ok rows ∧
    (inTransaction = true → u.mustAffectRows = true → rows ≠ 0)

/-- How many of the units are executed, when the first of them has the given number, and how their
run ends. -/
def ending (s : Session) (inTransaction : Bool) : Nat → List ExecutionUnit → Nat × UnitsEnd
  | _, [] => (0, .finished)
  | i, u :: rest =>
    if s.StopSeen i then (0, .cancelled)
    else
      match s.answer i with
      | .error failure => (1, .failed failure)
      | .ok rows =>
        if u.mustAffectRows && rows == 0 && inTransaction then (1, .noRows)
        else
          let after := s.ending inTransaction (i + 1) rest
          (after.1 + 1, after.2)

/-- A session that answers like another one from a later unit on ends like it. -/
theorem ending_shift {k : Nat} (ha : ∀ i, t.answer i = s.answer (i + k))
    (hs : ∀ i, t.StopSeen i ↔ s.StopSeen (i + k)) (i : Nat) :
    t.ending inTransaction i units = s.ending inTransaction (i + k) units := by
  induction units generalizing i with
  | nil => rfl
  | cons u rest ih =>
    have hn : i + 1 + k = i + k + 1 := by omega
    simp only [ending, ha, hs, ih, hn]

/-- Once the next unit has been executed, the units after it have the numbers that follow. -/
theorem ending_executed (i : Nat) :
    (s.executed u).ending inTransaction i units = s.ending inTransaction (i + 1) units :=
  ending_shift (fun i => s.answer_executed u i) (fun i => s.stopSeen_executed u i) i

/-- Log records and other questions change nothing about how units end. -/
@[simp] theorem ending_asked (record : LogRecord) (event : SessionEvent) (i : Nat) :
    ((s.logged record).asked event).ending inTransaction i units = s.ending inTransaction i units :=
  ending_shift (s := s) (t := (s.logged record).asked event) (k := 0) (fun _ => rfl)
    (fun _ => Iff.rfl) i

/-- A unit that passes is executed, and the rest decides. -/
theorem ending_cons {i : Nat} (h : s.Passes inTransaction i u) :
    s.ending inTransaction i (u :: units) =
      ((s.ending inTransaction (i + 1) units).1 + 1, (s.ending inTransaction (i + 1) units).2) := by
  obtain ⟨hstop, rows, hrows, hmust⟩ := h
  have hn : ¬ (u.mustAffectRows && rows == 0 && inTransaction) = true := by
    simp only [Bool.and_eq_true, beq_iff_eq, not_and]
    exact fun hu ht => hmust ht hu.1 hu.2
  rw [ending, if_neg hstop, hrows]
  simp only [if_neg hn]

/-- Units that pass are executed, and those after them decide. -/
theorem ending_drop {n i : Nat} (hn : n ≤ units.length)
    (h : ∀ j < n, ∀ u, units[j]? = some u → s.Passes inTransaction (i + j) u) :
    s.ending inTransaction i units =
      (n + (s.ending inTransaction (i + n) (units.drop n)).1,
        (s.ending inTransaction (i + n) (units.drop n)).2) := by
  induction n generalizing i units with
  | zero => simp
  | succ n ih =>
    cases units with
    | nil => simp at hn
    | cons u rest =>
      have hrest := ih (i := i + 1) (by simpa using hn) fun j hj v hv => by
        have hp := h (j + 1) (by omega) v hv
        rwa [show i + (j + 1) = i + 1 + j by omega] at hp
      have hfirst : s.Passes inTransaction i u := h 0 (by omega) u rfl
      have hk : i + 1 + n = i + (n + 1) := by omega
      rw [ending_cons hfirst, hrest, List.drop_succ_cons, hk]
      simp only [Prod.mk.injEq, and_true]
      omega

/-- No more units are executed than there are. -/
theorem ending_le (i : Nat) : (s.ending inTransaction i units).1 ≤ units.length := by
  induction units generalizing i with
  | nil => exact Nat.le_refl _
  | cons u rest ih =>
    rw [ending]
    have hi := ih (i + 1)
    split
    · simp
    · split
      · simp
      · split
        · simp
        · simpa using hi

/-- All units have run exactly when each of them passes. -/
theorem ending_eq_finished (i : Nat) :
    (s.ending inTransaction i units).2 = .finished ↔
      ∀ j u, units[j]? = some u → s.Passes inTransaction (i + j) u := by
  induction units generalizing i with
  | nil => simp [ending]
  | cons u rest ih =>
    have hsplit : (∀ j v, (u :: rest)[j]? = some v → s.Passes inTransaction (i + j) v) ↔
        s.Passes inTransaction i u ∧
          ∀ j v, rest[j]? = some v → s.Passes inTransaction (i + 1 + j) v := by
      constructor
      · intro h
        refine ⟨h 0 u rfl, fun j v hv => ?_⟩
        have hp := h (j + 1) v hv
        rwa [show i + (j + 1) = i + 1 + j by omega] at hp
      · rintro ⟨hfirst, hrest⟩ j v hv
        cases j with
        | zero =>
          obtain rfl : u = v := by simpa using hv
          exact hfirst
        | succ j =>
          have hp := hrest j v hv
          rwa [show i + 1 + j = i + (j + 1) by omega] at hp
    rw [hsplit]
    constructor
    · intro h
      rw [ending] at h
      split at h
      · exact absurd h (by simp)
      · next hstop =>
        split at h
        · exact absurd h (by simp)
        · next rows hrows =>
          split at h
          · exact absurd h (by simp)
          · next hmust =>
            refine ⟨⟨hstop, rows, hrows, fun ht hu hz => hmust ?_⟩, (ih (i + 1)).mp h⟩
            simp [ht, hu, hz]
    · rintro ⟨hfirst, hrest⟩
      rw [ending_cons hfirst]
      exact (ih (i + 1)).mpr hrest

/-- Where no unit fails and no check sees the wish to stop, all units run, or one affects no rows
although it must. -/
theorem ending_finished_or_noRows {i : Nat}
    (h : ∀ j < units.length, ¬ s.StopSeen (i + j) ∧ ∃ rows, s.answer (i + j) = .ok rows) :
    (s.ending inTransaction i units).2 = .finished ∨
      (s.ending inTransaction i units).2 = .noRows := by
  induction units generalizing i with
  | nil => exact .inl rfl
  | cons u rest ih =>
    obtain ⟨hstop, rows, hrows⟩ := h 0 (by simp)
    have hrest := ih (i := i + 1) fun j hj => by
      have hj := h (j + 1) (by simpa using hj)
      rwa [show i + (j + 1) = i + 1 + j by omega] at hj
    rw [Nat.add_zero] at hstop hrows
    rw [ending, if_neg hstop, hrows]
    dsimp only
    split
    · exact .inr rfl
    · exact hrest

/-- The first `n` of the units pass. -/
def Clears (s : Session) (inTransaction : Bool) (units : List ExecutionUnit) (n : Nat) : Prop :=
  ∀ i < n, ∀ u, units[i]? = some u → s.Passes inTransaction i u

/-- All units pass exactly when their run finishes. -/
theorem clears_length_iff :
    s.Clears inTransaction units units.length ↔ (s.ending inTransaction 0 units).2 = .finished := by
  rw [ending_eq_finished]
  constructor
  · intro h i u hu
    rw [Nat.zero_add]
    exact h i (List.getElem?_eq_some_iff.mp hu).1 u hu
  · intro h i _ u hu
    have hp := h i u hu
    rwa [Nat.zero_add] at hp

/-- When all units pass, all of them are executed. -/
theorem Clears.ending (h : s.Clears inTransaction units units.length) :
    s.ending inTransaction 0 units = (units.length, .finished) := by
  rw [ending_drop (Nat.le_refl _) fun j hj u hu => by rw [Nat.zero_add]; exact h j hj u hu,
    List.drop_length]
  rfl

/-- When the units before one pass, that one decides next. -/
theorem Clears.ending_next {n : Nat} (h : s.Clears inTransaction units n)
    (hu : units[n]? = some u) :
    s.ending inTransaction 0 units =
      (n + (s.ending inTransaction n (u :: units.drop (n + 1))).1,
        (s.ending inTransaction n (u :: units.drop (n + 1))).2) := by
  obtain ⟨hn, rfl⟩ := List.getElem?_eq_some_iff.mp hu
  rw [← List.drop_eq_getElem_cons hn, ending_drop (Nat.le_of_lt hn) fun j hj v hv => by
    rw [Nat.zero_add]; exact h j hj v hv, Nat.zero_add]

variable {n : Nat}

/-- A check that sees the wish to stop ends the run in front of its unit. -/
theorem Clears.ending_cancelled (h : s.Clears inTransaction units n) (hu : units[n]? = some u)
    (hs : s.StopSeen n) : s.ending inTransaction 0 units = (n, .cancelled) := by
  rw [h.ending_next hu, Session.ending, if_pos hs]
  rfl

/-- A unit that fails ends the run. -/
theorem Clears.ending_failed (h : s.Clears inTransaction units n) (hu : units[n]? = some u)
    (hs : ¬ s.StopSeen n) {failure : Failure} (ha : s.answer n = .error failure) :
    s.ending inTransaction 0 units = (n + 1, .failed failure) := by
  rw [h.ending_next hu, Session.ending, if_neg hs, ha]

/-- A unit that must affect rows and affects none ends the run of a transaction. -/
theorem Clears.ending_noRows (h : s.Clears true units n) (hu : units[n]? = some u)
    (hs : ¬ s.StopSeen n) (ha : s.answer n = .ok 0) (hm : u.mustAffectRows = true) :
    s.ending true 0 units = (n + 1, .noRows) := by
  rw [h.ending_next hu, Session.ending, if_neg hs, ha, hm]
  rfl

end Session

namespace ExecutionPlan

open Running

/-- Running units looks at the wish to stop, executes the first one, and goes on if nothing stops the
run there. -/
theorem outcome_runUnits_cons (inTransaction : Bool) (total completed : Nat) (affected : UInt64)
    (u : ExecutionUnit) (rest : List ExecutionUnit) (s : Session) :
    ∃ record, outcome (runUnits inTransaction total completed affected (u :: rest)) s =
      if s.cancelled then (.error (.cancelled completed total), s.logged record)
      else
        match s.answer 0 with
        | .error failure => (.error failure, s.executed u)
        | .ok rows =>
          if u.mustAffectRows && rows == 0 && inTransaction then (.ok .noRows, s.executed u)
          else
            outcome (runUnits inTransaction total (completed + 1) (affected + rows) rest)
              (s.executed u) := by
  simp only [runUnits, outcome_bind, outcome_get]
  by_cases hstop : s.cancelled = true
  · simp only [hstop, if_true, outcome_bind, outcome_log, outcome_throw]
    exact ⟨_, rfl⟩
  · simp only [hstop, Bool.false_eq_true, if_false, outcome_bind, outcome_execute]
    refine ⟨{ level := .warning, message := "" }, ?_⟩
    cases s.answer 0 with
    | error failure => rfl
    | ok rows =>
      dsimp only
      split <;> rfl

/-- Running units asks for the units up to the end that the answers give, and returns what belongs to
that end. How the server answers to committing and to rolling back is left alone. -/
theorem outcome_runUnits (inTransaction : Bool) (total completed : Nat) (affected : UInt64)
    (units : List ExecutionUnit) (s : Session) :
    let last := s.ending inTransaction 0 units
    ∃ v, outcome (runUnits inTransaction total completed affected units) s =
        (last.2.units total (completed + last.1) (affected + .ofNat (s.affected last.1)), v) ∧
      v.events = s.events ++ (units.take last.1).map .execute ∧
      v.script.commitFailure = s.script.commitFailure ∧
      v.script.rollbackFailure = s.script.rollbackFailure := by
  -- Executing a unit moves the answers of the session by one place, so the session varies too.
  induction units generalizing s completed affected with
  | nil =>
    refine ⟨s, ?_, by simp, rfl, rfl⟩
    simp [runUnits, Session.ending, Session.affected, UnitsEnd.units]
  | cons u rest ih =>
    obtain ⟨record, hrun⟩ :=
      outcome_runUnits_cons inTransaction total completed affected u rest s
    rw [hrun]
    simp only [Session.ending, s.stopSeen_zero]
    by_cases hstop : s.cancelled = true
    · rw [if_pos hstop, if_pos hstop]
      exact ⟨_, rfl, by simp, rfl, rfl⟩
    · rw [if_neg hstop, if_neg hstop]
      cases ha : s.answer 0 with
      | error failure => exact ⟨_, rfl, by simp, rfl, rfl⟩
      | ok rows =>
        dsimp only
        by_cases hmust : (u.mustAffectRows && rows == 0 && inTransaction) = true
        · rw [if_pos hmust, if_pos hmust]
          exact ⟨_, rfl, by simp, rfl, rfl⟩
        · rw [if_neg hmust, if_neg hmust]
          obtain ⟨v, hv, hevents, hcommit, hrollback⟩ :=
            ih (completed + 1) (affected + rows) (s.executed u)
          rw [Session.ending_executed] at hv hevents
          have hrows : s.rows 0 = rows.toNat := by rw [Session.rows, ha]
          have hsum : ∀ n, affected + rows + .ofNat ((s.executed u).affected n) =
              affected + .ofNat (s.affected (n + 1)) := by
            intro n
            rw [s.affected_succ u, hrows, UInt64.ofNat_add, UInt64.ofNat_toNat, UInt64.add_assoc]
          refine ⟨v, ?_, ?_, hcommit, hrollback⟩
          · rw [hv, hsum, Nat.add_right_comm, Nat.add_assoc]
          · rw [hevents, Session.executed_events, List.append_assoc]
            rfl

end ExecutionPlan

end AbstractSql
