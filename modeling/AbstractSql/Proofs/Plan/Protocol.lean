import AbstractSql.Proofs.Plan.Units

/-!
# The transaction protocol

What a run of a plan asks of its session, and what it returns, for every script of answers and every
moment at which the caller wishes to stop. In a transaction the first call begins it and the last one
commits it or rolls it back; outside of one there are only units.
-/

namespace AbstractSql

namespace UnitsEnd

/-- The call that closes a transaction whose units ended so. -/
def closing : UnitsEnd → SessionEvent
  | finished => .commit
  | noRows | failed _ | cancelled => .rollback

/-- What a transaction returns when its units ended so. A failure to roll back counts only where nothing
else has failed. -/
def settled (script : Script) (total executed : Nat) (affected : UInt64) :
    UnitsEnd → Except Failure UInt64
  | finished => script.commitFailure.elim (.ok affected) .error
  | noRows => script.rollbackFailure.elim (.ok 0) .error
  | failed failure => .error failure
  | cancelled => .error (.cancelled executed total)

/-- What a run without a transaction returns when its units ended so. -/
def plain (total executed : Nat) (affected : UInt64) : UnitsEnd → Except Failure UInt64
  | finished => .ok affected
  | noRows => .ok 0
  | failed failure => .error failure
  | cancelled => .error (.cancelled executed total)

/-- A transaction is committed exactly when its units have all run. -/
theorem closing_eq_commit {e : UnitsEnd} : e.closing = .commit ↔ e = finished := by
  cases e <;> simp [closing]

end UnitsEnd

namespace ExecutionPlan

open Running

/-- The calls of a transaction that executes the first `n` units and is closed by `last`. -/
def transacted (plan : ExecutionPlan) (n : Nat) (last : SessionEvent) : List SessionEvent :=
  .begin plan.isolation :: ((plan.units.take n).map .execute ++ [last])

variable (plan : ExecutionPlan) {s : Session}

/-- A plan without units asks for nothing and affects no rows. -/
theorem outcome_run_of_nil (hu : plan.units = []) (s : Session) :
    outcome plan.run s = (.ok 0, s) := by
  rw [run, hu]
  rfl

/-- Units that are to run in a transaction run in one. -/
theorem run_of_transaction (hu : plan.units ≠ []) (ht : plan.useTransaction = true) :
    plan.run = plan.runTransaction := by
  simp [run, hu, ht]

/-- Other units run without a transaction. -/
theorem run_of_plain (hu : plan.units ≠ []) (ht : plan.useTransaction = false) :
    plan.run = plan.runPlain := by
  simp [run, hu, ht]

/-- A transaction that cannot begin asks for nothing else. -/
theorem outcome_runTransaction_refused {failure : Failure}
    (h : s.script.beginFailure = some failure) :
    ∃ v, outcome plan.runTransaction s = (.error failure, v) ∧
      v.events = s.events ++ [.begin plan.isolation] := by
  simp only [runTransaction, outcome_bind, outcome_log, begin, outcome_ask, Session.logged_script, h,
    Option.elim_some]
  exact ⟨_, rfl, rfl⟩

/-- Rolling back after a failure asks for nothing else, and does not fail. -/
theorem outcome_rollbackAfterFailure (s : Session) :
    ∃ v, outcome rollbackAfterFailure s = (.ok ⟨⟩, v) ∧ v.events = s.events ++ [.rollback] := by
  simp only [rollbackAfterFailure, outcome_bind, outcome_attempt, rollback, outcome_ask]
  cases s.script.rollbackFailure with
  | none => exact ⟨_, rfl, rfl⟩
  | some failure => exact ⟨_, rfl, rfl⟩

/-- A transaction that begins executes the units up to their end and is closed. -/
theorem outcome_runTransaction (h : s.script.beginFailure = none) :
    let last := s.ending true 0 plan.units
    ∃ v, outcome plan.runTransaction s =
        (last.2.settled s.script plan.units.length last.1 (.ofNat (s.affected last.1)), v) ∧
      v.events = s.events ++ plan.transacted last.1 last.2.closing := by
  intro last
  simp only [runTransaction, outcome_bind, outcome_log, begin, outcome_ask, Session.logged_script, h,
    Option.elim_none, outcome_attempt]
  generalize hb : (s.logged _).asked (.begin plan.isolation) = begun
  have hending : begun.ending true 0 plan.units = last := by
    subst hb
    exact Session.ending_asked _ _ 0
  have haffected : begun.affected last.1 = s.affected last.1 := by
    subst hb
    rfl
  obtain ⟨v, hv, hevents, hcommit, hrollback⟩ :=
    outcome_runUnits true plan.units.length 0 0 plan.units begun
  rw [hending] at hv hevents
  have hcalls : ∀ event, v.events ++ [event] = s.events ++ plan.transacted last.1 event := by
    intro event
    subst hb
    rw [hevents]
    simp [transacted]
  have hscript : v.script.commitFailure = s.script.commitFailure ∧
      v.script.rollbackFailure = s.script.rollbackFailure := by
    subst hb
    exact ⟨hcommit, hrollback⟩
  rw [hv, haffected, Nat.zero_add, UInt64.zero_add]
  cases hl : last.2 with
  | finished =>
    simp only [UnitsEnd.units, UnitsEnd.settled, UnitsEnd.closing, commit, outcome_bind, outcome_ask,
      hscript.1]
    cases s.script.commitFailure with
    | none => exact ⟨_, rfl, hcalls _⟩
    | some failure => exact ⟨_, rfl, hcalls _⟩
  | noRows =>
    simp only [UnitsEnd.units, UnitsEnd.settled, UnitsEnd.closing, rollback, outcome_bind, outcome_ask,
      outcome_log, Session.logged_script, hscript.2]
    cases s.script.rollbackFailure with
    | none => exact ⟨_, rfl, hcalls _⟩
    | some failure => exact ⟨_, rfl, hcalls _⟩
  | failed failure =>
    obtain ⟨x, hx, hxevents⟩ := outcome_rollbackAfterFailure v
    simp only [UnitsEnd.units, UnitsEnd.settled, UnitsEnd.closing, outcome_bind, hx, outcome_throw]
    exact ⟨x, rfl, hxevents.trans (hcalls _)⟩
  | cancelled =>
    obtain ⟨x, hx, hxevents⟩ := outcome_rollbackAfterFailure v
    simp only [UnitsEnd.units, UnitsEnd.settled, UnitsEnd.closing, outcome_bind, hx, outcome_throw]
    exact ⟨x, rfl, hxevents.trans (hcalls _)⟩

/-- Without a transaction only the units up to their end are asked for. -/
theorem outcome_runPlain (s : Session) :
    let last := s.ending false 0 plan.units
    ∃ v, outcome plan.runPlain s =
        (last.2.plain plan.units.length last.1 (.ofNat (s.affected last.1)), v) ∧
      v.events = s.events ++ (plan.units.take last.1).map .execute := by
  intro last
  obtain ⟨v, hv, hevents, -, -⟩ := outcome_runUnits false plan.units.length 0 0 plan.units s
  rw [Nat.zero_add, UInt64.zero_add] at hv
  refine ⟨v, ?_, hevents⟩
  rw [runPlain, outcome_bind, hv]
  cases (s.ending false 0 plan.units).2 <;> rfl

/-- What a run in a transaction asks for and returns. -/
structure TransactionProtocol (plan : ExecutionPlan) (s : Session)
    (result : Except Failure UInt64) (calls : List SessionEvent) : Prop where
  /-- A transaction that cannot begin asks for nothing else, and returns why. -/
  refused : ∀ failure, s.script.beginFailure = some failure →
    calls = [.begin plan.isolation] ∧ result = .error failure
  /-- Any other begins, executes the first units in order, each once, and ends with one commit or one
  rollback. -/
  framed : s.script.beginFailure = none →
    ∃ n last, n ≤ plan.units.length ∧ (last = .commit ∨ last = .rollback) ∧
      calls = plan.transacted n last
  /-- It is committed exactly when every unit runs without a failure, no unit that must affect rows
  affects none, and no check sees the wish to stop. -/
  commits : s.script.beginFailure = none →
    (.commit ∈ calls ↔ s.Clears true plan.units plan.units.length)
  /-- A commit follows all units, and the sum of their rows is returned unless committing fails. -/
  committed : .commit ∈ calls → calls = plan.transacted plan.units.length .commit ∧
    ∃ rows : UInt64, rows.toNat = s.affected plan.units.length ∧
      result = s.script.commitFailure.elim (.ok rows) .error
  /-- The first unit that must affect rows and affects none is the last one, and the result is no rows
  unless rolling back fails. -/
  noRows : s.script.beginFailure = none → ∀ n u, plan.units[n]? = some u →
    s.Clears true plan.units n → ¬ s.StopSeen n → s.answer n = .ok 0 → u.mustAffectRows = true →
      calls = plan.transacted (n + 1) .rollback ∧
        result = s.script.rollbackFailure.elim (.ok 0) .error
  /-- The first unit that fails is the last one, and its failure is returned whatever the rollback
  does. -/
  failed : s.script.beginFailure = none → ∀ n < plan.units.length,
    s.Clears true plan.units n → ¬ s.StopSeen n → ∀ failure, s.answer n = .error failure →
      calls = plan.transacted (n + 1) .rollback ∧ result = .error failure
  /-- The first check that sees the wish to stop keeps its unit from being executed, and how far the run
  came is returned whatever the rollback does. -/
  cancelled : s.script.beginFailure = none → ∀ n < plan.units.length,
    s.Clears true plan.units n → s.StopSeen n →
      calls = plan.transacted n .rollback ∧ result = .error (.cancelled n plan.units.length)

/-- What a run without a transaction asks for and returns. -/
structure PlainProtocol (plan : ExecutionPlan) (s : Session)
    (result : Except Failure UInt64) (calls : List SessionEvent) : Prop where
  /-- The first units are executed in order, each once, and nothing else is asked for. -/
  framed : ∃ n ≤ plan.units.length, calls = (plan.units.take n).map .execute
  /-- When no unit fails and no check sees the wish to stop, all units are executed, whatever rows they
  must affect, and the sum of the rows is returned. -/
  finished : s.Clears false plan.units plan.units.length →
    calls = plan.units.map .execute ∧
      ∃ rows : UInt64, rows.toNat = s.affected plan.units.length ∧ result = .ok rows
  /-- The first unit that fails is the last one, and its failure is returned. -/
  failed : ∀ n < plan.units.length, s.Clears false plan.units n → ¬ s.StopSeen n →
    ∀ failure, s.answer n = .error failure →
      calls = (plan.units.take (n + 1)).map .execute ∧ result = .error failure
  /-- The first check that sees the wish to stop keeps its unit from being executed, and how far the run
  came is returned. -/
  cancelled : ∀ n < plan.units.length, s.Clears false plan.units n → s.StopSeen n →
    calls = (plan.units.take n).map .execute ∧ result = .error (.cancelled n plan.units.length)

variable {plan}

/-- A run in a transaction keeps the protocol, when the rows of all units can be counted. -/
theorem transactionProtocol_of_run {result : Except Failure UInt64} {v : Session}
    {calls : List SessionEvent}
    (hrows : s.Clears true plan.units plan.units.length →
      s.affected plan.units.length < UInt64.size)
    (h : outcome plan.runTransaction s = (result, v)) (hv : v.events = s.events ++ calls) :
    TransactionProtocol plan s result calls := by
  have hrefused : ∀ failure, s.script.beginFailure = some failure →
      calls = [.begin plan.isolation] ∧ result = .error failure := by
    intro failure hb
    obtain ⟨x, hx, hevents⟩ := outcome_runTransaction_refused plan hb
    obtain ⟨rfl, rfl⟩ := Prod.mk.inj (h.symm.trans hx)
    exact ⟨List.append_cancel_left (hv.symm.trans hevents), rfl⟩
  -- Each part of the protocol is this equation at the ending that its hypotheses lead to.
  have hbegun : s.script.beginFailure = none → ∀ n e, s.ending true 0 plan.units = (n, e) →
      calls = plan.transacted n e.closing ∧
        result = e.settled s.script plan.units.length n (.ofNat (s.affected n)) := by
    intro hb n e he
    obtain ⟨x, hx, hevents⟩ := outcome_runTransaction plan hb
    rw [he] at hx hevents
    obtain ⟨rfl, rfl⟩ := Prod.mk.inj (h.symm.trans hx)
    exact ⟨List.append_cancel_left (hv.symm.trans hevents), rfl⟩
  have hcommit : ∀ n last, SessionEvent.commit ∈ plan.transacted n last ↔ last = .commit := by
    intro n last
    have hunits : SessionEvent.commit ∉ (plan.units.take n).map .execute := by
      intro h
      obtain ⟨u, -, hu⟩ := List.mem_map.mp h
      exact absurd hu (by simp)
    simp only [transacted, List.mem_cons, List.mem_append, hunits, reduceCtorEq, List.not_mem_nil,
      false_or, or_false, eq_comm]
  have hcommits : s.script.beginFailure = none →
      (.commit ∈ calls ↔ s.Clears true plan.units plan.units.length) := by
    intro hb
    obtain ⟨hcalls, -⟩ := hbegun hb _ _ rfl
    rw [hcalls, hcommit, UnitsEnd.closing_eq_commit, Session.clears_length_iff]
  refine ⟨hrefused, fun hb => ?_, hcommits, fun hc => ?_, fun hb n u hu hp hs ha hm => ?_,
    fun hb n hn hp hs failure ha => ?_, fun hb n hn hp hs => ?_⟩
  · obtain ⟨hcalls, -⟩ := hbegun hb _ _ rfl
    refine ⟨_, _, Session.ending_le 0, ?_, hcalls⟩
    cases (s.ending true 0 plan.units).2 <;> simp [UnitsEnd.closing]
  · have hb : s.script.beginFailure = none := by
      cases hb : s.script.beginFailure with
      | none => rfl
      | some failure => simp [(hrefused failure hb).1] at hc
    have hall := (hcommits hb).mp hc
    obtain ⟨hcalls, hresult⟩ := hbegun hb _ _ hall.ending
    exact ⟨hcalls, _, UInt64.toNat_ofNat_of_lt' (hrows hall), hresult⟩
  · exact hbegun hb _ _ (hp.ending_noRows hu hs ha hm)
  · exact hbegun hb _ _ (hp.ending_failed (List.getElem?_eq_getElem hn) hs ha)
  · exact hbegun hb _ _ (hp.ending_cancelled (List.getElem?_eq_getElem hn) hs)

/-- A run without a transaction keeps its protocol, when the rows of all units can be counted. -/
theorem plainProtocol_of_run {result : Except Failure UInt64} {v : Session}
    {calls : List SessionEvent}
    (hrows : s.Clears false plan.units plan.units.length →
      s.affected plan.units.length < UInt64.size)
    (h : outcome plan.runPlain s = (result, v)) (hv : v.events = s.events ++ calls) :
    PlainProtocol plan s result calls := by
  have hrun : ∀ n e, s.ending false 0 plan.units = (n, e) →
      calls = (plan.units.take n).map .execute ∧
        result = e.plain plan.units.length n (.ofNat (s.affected n)) := by
    intro n e he
    obtain ⟨x, hx, hevents⟩ := outcome_runPlain plan s
    rw [he] at hx hevents
    obtain ⟨rfl, rfl⟩ := Prod.mk.inj (h.symm.trans hx)
    exact ⟨List.append_cancel_left (hv.symm.trans hevents), rfl⟩
  refine ⟨⟨_, Session.ending_le 0, (hrun _ _ rfl).1⟩, fun hp => ?_, fun n hn hp hs failure ha => ?_,
    fun n hn hp hs => ?_⟩
  · obtain ⟨hcalls, hresult⟩ := hrun _ _ hp.ending
    rw [List.take_length] at hcalls
    exact ⟨hcalls, _, UInt64.toNat_ofNat_of_lt' (hrows hp), hresult⟩
  · exact hrun _ _ (hp.ending_failed (List.getElem?_eq_getElem hn) hs ha)
  · exact hrun _ _ (hp.ending_cancelled (List.getElem?_eq_getElem hn) hs)

/-- Every run keeps the protocol, as long as the rows that its units affect can be counted. A plan
without units asks for nothing and affects no rows. In a transaction a run begins it, executes the first
units, and commits or rolls back; without one it only executes units. -/
theorem run_protocol (plan : ExecutionPlan) (s : Session)
    (hrows : ∀ n ≤ plan.units.length, s.Clears plan.useTransaction plan.units n →
      s.affected n < UInt64.size) :
    ∃ result v calls, outcome plan.run s = (result, v) ∧ v.events = s.events ++ calls ∧
      (plan.units = [] → result = .ok 0 ∧ calls = []) ∧
      (plan.units ≠ [] → plan.useTransaction = true → TransactionProtocol plan s result calls) ∧
      (plan.useTransaction = false → PlainProtocol plan s result calls) := by
  have hall : s.Clears plan.useTransaction plan.units plan.units.length →
      s.affected plan.units.length < UInt64.size := hrows _ (Nat.le_refl _)
  by_cases hu : plan.units = []
  · have hplain : outcome plan.runPlain s = (.ok 0, s) := by rw [runPlain, hu]; rfl
    refine ⟨.ok 0, s, [], plan.outcome_run_of_nil hu s, (List.append_nil _).symm,
      fun _ => ⟨rfl, rfl⟩, fun hn => absurd hu hn, fun ht => ?_⟩
    rw [ht] at hall
    exact plainProtocol_of_run hall hplain (List.append_nil _).symm
  cases ht : plan.useTransaction with
  | true =>
    rw [ht] at hall
    rw [plan.run_of_transaction hu ht]
    obtain ⟨result, v, calls, hv, hevents⟩ : ∃ result v calls,
        outcome plan.runTransaction s = (result, v) ∧ v.events = s.events ++ calls := by
      cases hb : s.script.beginFailure with
      | some failure =>
        obtain ⟨v, hv, hevents⟩ := plan.outcome_runTransaction_refused hb
        exact ⟨_, v, _, hv, hevents⟩
      | none =>
        obtain ⟨v, hv, hevents⟩ := plan.outcome_runTransaction hb
        exact ⟨_, v, _, hv, hevents⟩
    exact ⟨result, v, calls, hv, hevents, fun hn => absurd hn hu,
      fun _ _ => transactionProtocol_of_run hall hv hevents, fun hf => absurd hf (by simp)⟩
  | false =>
    rw [ht] at hall
    rw [plan.run_of_plain hu ht]
    obtain ⟨v, hv, hevents⟩ := plan.outcome_runPlain s
    exact ⟨_, v, _, hv, hevents, fun hn => absurd hn hu, fun _ hf => absurd hf (by simp),
      fun _ => plainProtocol_of_run hall hv hevents⟩

/-- A unit that must affect rows affects none, before the last unit: the transaction is rolled back, and
the failure to roll back is what is returned. -/
theorem run_protocol_noRows :
    let insertion : ExecutionUnit := { statements := ["INSERT INTO `Log` (`text`) VALUES ('a')"] }
    let removal : ExecutionUnit :=
      { statements := ["DELETE TB FROM `User` AS TB"], mustAffectRows := true }
    let plan : ExecutionPlan := { units := [insertion, removal, insertion], useTransaction := true }
    let s : Session :=
      { script := { results := [.ok 2, .ok 0, .ok 1], rollbackFailure := some (.connection "lost") } }
    (∀ n ≤ plan.units.length, s.Clears true plan.units n → s.affected n < UInt64.size) ∧
      ∃ v, outcome plan.run s = (.error (.connection "lost"), v) ∧
        v.events = [.begin none, .execute insertion, .execute removal, .rollback] := by
  intro insertion removal plan s
  have hrows : ∀ n ≤ plan.units.length, s.Clears true plan.units n →
      s.affected n < UInt64.size := fun n hn _ => by
    have h : ∀ n ≤ 3, s.affected n < UInt64.size := by decide
    exact h n hn
  refine ⟨hrows, ?_⟩
  obtain ⟨result, v, calls, hrun, hevents, -, htransaction, -⟩ := run_protocol plan s hrows
  have hprotocol := htransaction (by simp [plan]) rfl
  have hfirst : s.Clears true plan.units 1 := by
    intro i hi u hu
    obtain rfl : i = 0 := by omega
    exact ⟨by decide, 2, rfl, fun _ _ => by decide⟩
  obtain ⟨rfl, rfl⟩ := hprotocol.noRows rfl 1 removal rfl hfirst (by decide) rfl rfl
  exact ⟨v, hrun, hevents⟩

end ExecutionPlan

end AbstractSql
