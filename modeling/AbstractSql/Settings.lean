import AbstractSql.Batch

/-!
# Settings

What an engine is set up with, and the servers it talks to.
-/

namespace AbstractSql

/-- Thresholds for grouping, as asked for. -/
structure BatchSettings where
  /-- Largest number of statements of a group. -/
  statementThreshold : Option Int64 := none
  /-- Largest number of parameters of a group. -/
  parameterThreshold : Option Int64 := none
  deriving DecidableEq

/-- The thresholds asked for. -/
def BatchSettings.thresholds (s : BatchSettings) : Thresholds :=
  .ofRequest s.statementThreshold s.parameterThreshold

/-- What an engine is set up with. -/
structure Settings where
  /-- Thresholds for grouping. -/
  batch : BatchSettings := {}
  /-- Isolation level of transactions that name none. -/
  isolationLevel : Option Isolation := none
  /-- Whether every compiled statement is logged. -/
  traceStatements : Bool := false
  deriving DecidableEq

namespace Settings

/-- Limit the statements of a group. -/
def withStatementThreshold (s : Settings) (threshold : Int64) : Settings :=
  { s with batch := { s.batch with statementThreshold := some threshold } }

/-- Limit the parameters of a group. -/
def withParameterThreshold (s : Settings) (threshold : Int64) : Settings :=
  { s with batch := { s.batch with parameterThreshold := some threshold } }

/-- Set the isolation level of transactions that name none. -/
def withIsolation (s : Settings) (level : Isolation) : Settings :=
  { s with isolationLevel := some level }

/-- Log every compiled statement, or do not. -/
def withTrace (s : Settings) (traceStatements : Bool) : Settings := { s with traceStatements }

end Settings

/-- A server by name. -/
structure Server where
  /-- Name of the server, and of its database when there is no address. -/
  name : String
  /-- Address to connect to. -/
  url : Option String := none
  deriving DecidableEq

/-- Address that is connected to: the local server unless another is given. -/
def Server.connectionUrl (s : Server) : String := s.url.getD ("mysql://localhost/" ++ s.name)

/-- Give a server an address. -/
def Server.withUrl (s : Server) (url : String) : Server := { s with url := some url }

end AbstractSql
