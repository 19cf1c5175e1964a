import AbstractSql.Json
import AbstractSql.Settings

/-!
# Sessions

A session is one connection to a server. It is described by a `Script`, the answers the server is
going to give, and records what it was asked, so that a run is a function from scripts to records.
-/

namespace AbstractSql

/-- A row of a result, by column name. -/
abbrev Row := List (String × Json)

/-- Weight of a log record. -/
inductive LogLevel where
  /-- For developers. -/
  | debug
  /-- For operators. -/
  | info
  /-- Something unusual. -/
  | warning
  /-- Something failed. -/
  | error
  deriving DecidableEq

/-- A log record. -/
structure LogRecord where
  /-- Weight. -/
  level : LogLevel
  /-- What happened. -/
  message : String
  /-- Further particulars by name. -/
  fields : List (String × String) := []
  deriving DecidableEq

/-- What a session was asked. -/
inductive SessionEvent where
  /-- To connect to an address. -/
  | connect (url : String)
  /-- To begin a transaction. -/
  | begin (isolation : Option Isolation)
  /-- To execute a unit. -/
  | execute (u : ExecutionUnit)
  /-- To fetch all rows of a statement. -/
  | fetchRows (statement : Statement)
  /-- To fetch the first column of the first row of a statement. -/
  | fetchScalar (statement : Statement)
  /-- To commit. -/
  | commit
  /-- To roll back. -/
  | rollback

/-- The answers a server is going to give. -/
structure Script where
  /-- Failure of connecting. -/
  connectFailure : Option Failure := none
  /-- Failure of beginning a transaction. -/
  beginFailure : Option Failure := none
  /-- Failure of fetching. -/
  fetchFailure : Option Failure := none
  /-- Failure of committing. -/
  commitFailure : Option Failure := none
  /-- Failure of rolling back. -/
  rollbackFailure : Option Failure := none
  /-- Rows affected by each unit, or its failure; one row each after the last. -/
  results : List (Except Failure UInt64) := []
  /-- Rows of every statement. -/
  rows : List Row := []
  /-- First column of the first row of every statement. -/
  scalar : Json := .null
  /-- Number of the unit, from 1, during which the caller stops the run. -/
  cancelAt : Option Nat := none

/-- A connection, with what it was asked so far. -/
structure Session where
  /-- Answers still to come. -/
  script : Script := {}
  /-- Number of units executed. -/
  executions : Nat := 0
  /-- Whether the caller has stopped the run. -/
  cancelled : Bool := false
  /-- What the session was asked, in order. -/
  events : List SessionEvent := []
  /-- Log records, in order. -/
  log : List LogRecord := []

/-- A step of a run. -/
abbrev Running := ExceptT Failure (StateM Session)

namespace Running

/-- Record a question, then fail if the script says so. -/
def ask (event : SessionEvent) (failure : Script → Option Failure) : Running Unit := do
  modify fun s => { s with events := s.events ++ [event] }
  match failure (← get).script with
  | some failure => throw failure
  | none => pure ()

/-- Write a log record. -/
def log (record : LogRecord) : Running Unit :=
  modify fun s => { s with log := s.log ++ [record] }

/-- Connect to an address. -/
def connect (url : String) : Running Unit := ask (.connect url) (·.connectFailure)

/-- Begin a transaction. -/
def begin (isolation : Option Isolation) : Running Unit :=
  ask (.begin isolation) (·.beginFailure)

/-- Commit. -/
def commit : Running Unit := ask .commit (·.commitFailure)

/-- Roll back. -/
def rollback : Running Unit := ask .rollback (·.rollbackFailure)

/-- Fetch all rows of a statement. -/
def fetchRows (statement : Statement) : Running (List Row) := do
  ask (.fetchRows statement) (·.fetchFailure)
  return (← get).script.rows

/-- Fetch the first column of the first row of a statement. -/
def fetchScalar (statement : Statement) : Running Json := do
  ask (.fetchScalar statement) (·.fetchFailure)
  return (← get).script.scalar

/-- Execute a unit and return the number of rows it affects. -/
def execute (u : ExecutionUnit) : Running UInt64 := do
  ask (.execute u) fun _ => none
  let s ← get
  let executions := s.executions + 1
  set { s with
    executions
    cancelled := s.cancelled || s.script.cancelAt == some executions
    script := { s.script with results := s.script.results.tail } }
  match s.script.results with
  | [] => return 1
  | .ok affected :: _ => return affected
  | .error failure :: _ => throw failure

/-- The outcome of a step; taking it does not fail. -/
def attempt {α : Type} (step : Running α) : Running (Except Failure α) :=
  ExceptT.mk do
    let outcome ← step.run
    return .ok outcome

end Running

end AbstractSql
