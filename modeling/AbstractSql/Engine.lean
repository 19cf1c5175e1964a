import AbstractSql.Form.Settings
import AbstractSql.Session
import AbstractSql.Text.Quoted

/-!
# Running commands and queries

An `ExecutionPlan` runs on an open session, in a transaction or without one. In a transaction every
way to stop short ends in one rollback: a failure, a stop by the caller, and a unit that had to
affect rows and affected none. An `Engine` compiles commands and queries, connects and runs them.
-/

namespace AbstractSql

/-- Units with the way to run them. -/
structure ExecutionPlan where
  /-- Units in order. -/
  units : List ExecutionUnit
  /-- Whether they run in one transaction. -/
  useTransaction : Bool := false
  /-- Isolation level of the transaction. -/
  isolation : Option Isolation := none

/-- How the units of a plan ended. -/
inductive UnitsOutcome where
  /-- All have run. -/
  | finished (affected : UInt64)
  /-- One that had to affect rows affected none. -/
  | noRows
  deriving DecidableEq

namespace ExecutionPlan

/-- Name of an optional isolation level in log records. -/
def isolationText : Option Isolation → String
  | none => "None"
  | some level => "Some(" ++ level.name ++ ")"

/-- Run units in order. The caller's wish to stop is looked at before each, and in a transaction a
unit that had to affect rows and affected none stops the run. -/
def runUnits (useTransaction : Bool) (total : Nat) :
    Nat → UInt64 → List ExecutionUnit → Running UnitsOutcome
  | _, affected, [] => return .finished affected
  | completed, affected, u :: rest => do
    if (← get).cancelled then
      Running.log
        { level := .warning
          message := "Execution cancelled after " ++ toString completed ++ " of "
            ++ toString total ++ " units" }
      throw (.cancelled completed total)
    let rows ← Running.execute u
    if u.mustAffectRows && rows == 0 && useTransaction then return .noRows
    runUnits useTransaction total (completed + 1) (affected + rows) rest

/-- Roll back after a failure; that this fails as well is only logged. -/
def rollbackAfterFailure : Running Unit := do
  match ← Running.attempt Running.rollback with
  | .ok _ => pure ()
  | .error failure =>
    Running.log { level := .error, message := "Rollback failed: " ++ failure.message }

/-- Rows affected by units that run without a transaction. -/
def runPlain (plan : ExecutionPlan) : Running UInt64 := do
  match ← runUnits false plan.units.length 0 0 plan.units with
  | .finished affected => return affected
  | .noRows => return 0

/-- Rows affected by units that run in a transaction. -/
def runTransaction (plan : ExecutionPlan) : Running UInt64 := do
  Running.log
    { level := .debug
      message := "Beginning transaction (isolation: " ++ isolationText plan.isolation ++ ")" }
  Running.begin plan.isolation
  match ← Running.attempt (runUnits true plan.units.length 0 0 plan.units) with
  | .ok (.finished affected) =>
    Running.commit
    Running.log
      { level := .debug
        message := "Committed " ++ toString plan.units.length ++ " units, "
          ++ toString affected.toNat ++ " rows affected" }
    return affected
  | .ok .noRows =>
    Running.log
      { level := .warning, message := "Execution unit affected no rows, rolling back" }
    Running.rollback
    return 0
  | .error failure =>
    rollbackAfterFailure
    throw failure

/-- Rows affected by a plan. A plan without units asks nothing of the session. -/
def run (plan : ExecutionPlan) : Running UInt64 :=
  if plan.units.isEmpty then return 0
  else if plan.useTransaction then plan.runTransaction
  else plan.runPlain

end ExecutionPlan

/-- How a list of commands is to be run. -/
structure ExecuteOptions where
  /-- Whether in a transaction; if it is not said, more than one command takes one. -/
  transaction : Option Bool := none
  /-- Isolation level of the transaction. -/
  isolation : Option Isolation := none

/-- Everything needed to compile and run. -/
structure Engine where
  /-- What entities and properties are called in the database. -/
  catalog : Catalog := {}
  /-- Settings. -/
  settings : Settings := {}
  /-- Where groups of units end. -/
  policy : BatchPolicy := settings.batch.thresholds.toPolicy

namespace Engine

/-- Log record of compiled text. -/
def traceRecord (message text : String) (parameters : ParameterSet) : LogRecord :=
  { level := .debug
    message
    fields := [("statement", text), ("parameters", Text.quotedList parameters.names)] }

/-- Log records of planning commands: with tracing one for each compiled command, and one for a
plan that was made. -/
def planRecords (engine : Engine) (commands : List Command) : List LogRecord :=
  let compiled := Command.compileAll engine.catalog commands {}
  let traced :=
    if engine.settings.traceStatements then
      compiled.1.map fun u => traceRecord "compiled command" u.text u.parameters
    else []
  traced ++
    match Command.planAll engine.catalog engine.policy commands with
    | .error _ => []
    | .ok units =>
      [{ level := .debug
         message := "Planned " ++ toString commands.length ++ " commands into "
           ++ toString units.length ++ " execution units" }]

/-- Compile and group commands, without a connection. -/
def plan (engine : Engine) (options : ExecuteOptions) (commands : List Command) :
    Running ExecutionPlan := do
  (engine.planRecords commands).forM Running.log
  match Command.planAll engine.catalog engine.policy commands with
  | .error failure => throw failure
  | .ok units =>
    return {
      units
      useTransaction := options.transaction.getD (decide (1 < commands.length))
      isolation := options.isolation.or engine.settings.isolationLevel }

/-- Compile commands and run them on a server. Nothing is connected before all of them are
compiled, nor for a plan without units. -/
def execute (engine : Engine) (server : Server) (options : ExecuteOptions)
    (commands : List Command) : Running UInt64 := do
  let plan ← engine.plan options commands
  if plan.units.isEmpty then return 0
  Running.log
    { level := .info
      message := "Executing " ++ toString plan.units.length ++ " units on " ++ server.name
        ++ " (transaction: " ++ (if plan.useTransaction then "true" else "false") ++ ")" }
  Running.connect server.connectionUrl
  plan.run

/-- Run a read, in a transaction exactly when the query asks for an isolation level. -/
def read {α : Type} (engine : Engine) (server : Server) (q : Query) (statement : Statement)
    (fetch : Statement → Running α) : Running α := do
  if engine.settings.traceStatements then
    Running.log (traceRecord "compiled query" statement.text statement.parameters)
  Running.connect server.connectionUrl
  match q.isolation with
  | none => fetch statement
  | some level =>
    Running.begin (some level)
    match ← Running.attempt (fetch statement) with
    | .ok result =>
      Running.commit
      return result
    | .error failure =>
      ExecutionPlan.rollbackAfterFailure
      throw failure

/-- The statement that reads a query, with names of its own. -/
def statement (engine : Engine) (mode : ReadMode) (q : Query) : Running Statement :=
  match ((Statement.read engine.catalog mode q).run.run {}).1 with
  | .ok statement => return statement
  | .error failure => throw failure

/-- The rows that a query is read as. -/
def rows (engine : Engine) (server : Server) (mode : ReadMode) (q : Query) :
    Running (List Row) := do
  engine.read server q (← engine.statement mode q) Running.fetchRows

/-- The single value that a query is read as. -/
def scalar (engine : Engine) (server : Server) (mode : ReadMode) (q : Query) : Running Json := do
  engine.read server q (← engine.statement mode q) Running.fetchScalar

/-- Whether a single value says yes: true, an integer other than zero, or a text other than `0`. -/
def isYes : Json → Bool
  | .bool b => b
  | .number n =>
    match n.toInt? with
    | some n => n != 0
    | none => false
  | .string s => s != "0"
  | _ => false

/-- Whether a query has rows. -/
def existence (engine : Engine) (server : Server) (q : Query) : Running Bool := do
  return isYes (← engine.scalar server .existence q)

/-- An aggregate over the rows of a query. -/
def aggregate (engine : Engine) (server : Server) (function : Aggregate) (q : Query) :
    Running Json :=
  engine.scalar server (.aggregate function) q

end Engine

end AbstractSql
