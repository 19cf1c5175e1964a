import AbstractSql.Query

/-!
# Failures

Everything that can go wrong, by cause. `Failure.message` holds the wording; no other module words
a failure.
-/

namespace AbstractSql

/-- Where a query needs an entity. -/
inductive EntityRole where
  /-- As a joined query. -/
  | join
  /-- As the other side of a set operation. -/
  | combine
  deriving DecidableEq

/-- What is wrong with a configuration. -/
inductive ConfigurationFault where
  /-- No field of the entity can be inserted. -/
  | noEditableField (entity : String)
  /-- No field of the entity can be matched in place of a set operation. -/
  | noMatchField (entity : String)
  /-- No field of the entity can stand for its rows. -/
  | noProbeField (entity : String)
  /-- The text of an entity catalog cannot be read. -/
  | invalidCatalog (reason : String)
  /-- The text of engine settings cannot be read. -/
  | invalidSettings (reason : String)
  /-- A fault that the caller words. -/
  | stated (text : String)
  deriving DecidableEq

/-- What is wrong with a statement that is run. -/
inductive ExecutionFault where
  /-- A quoted part that begins at this byte is never closed. -/
  | unterminatedLiteral (byte : Nat)
  /-- A fault that the server words. -/
  | stated (text : String)
  deriving DecidableEq

/-- What can go wrong. -/
inductive Failure where
  /-- A set operator without a native form. -/
  | unsupportedCombine (operator : String)
  /-- A conversion that no one knows. -/
  | unknownConversion (name : String)
  /-- An update that sets nothing. -/
  | missingUpdateFields (entity : String)
  /-- A compared query that selects nothing. -/
  | subqueryWithoutFields (entity : String)
  /-- An aggregate without a field. -/
  | missingAggregateField (function : Aggregate)
  /-- A query without an entity where one is needed. -/
  | missingEntity (role : EntityRole)
  /-- A placeholder that nothing is bound to. -/
  | unknownParameter (name : String)
  /-- A fault of the configuration. -/
  | configuration (fault : ConfigurationFault)
  /-- The server cannot be reached. -/
  | connection (text : String)
  /-- A statement cannot be run. -/
  | execution (fault : ExecutionFault)
  /-- The caller stopped the run. -/
  | cancelled (completed total : Nat)
  /-- A file cannot be read. -/
  | io (reason : String)
  deriving DecidableEq

/-- Word for the operation that needs an entity. -/
def EntityRole.text : EntityRole → String
  | join => "join"
  | combine => "combine"

/-- Wording of a configuration fault. -/
def ConfigurationFault.text : ConfigurationFault → String
  | noEditableField entity => "entity '" ++ entity ++ "' has no editable fields to insert"
  | noMatchField entity => "entity '" ++ entity ++ "' has no fields to match a set operation on"
  | noProbeField entity => "entity '" ++ entity ++ "' has no key or queryable field"
  | invalidCatalog reason => "invalid entity catalog: " ++ reason
  | invalidSettings reason => "invalid engine config: " ++ reason
  | stated text => text

/-- Wording of an execution fault. -/
def ExecutionFault.text : ExecutionFault → String
  | unterminatedLiteral byte =>
    "unterminated literal at byte " ++ toString byte ++ " of statement"
  | stated text => text

namespace Failure

/-- Wording of a failure. -/
def message : Failure → String
  | unsupportedCombine operator => "Unsupported combine kind for MySQL: " ++ operator
  | unknownConversion name => "Unknown field conversion '" ++ name ++ "' for MySQL"
  | missingUpdateFields entity => "Update command on '" ++ entity ++ "' has no fields to set"
  | subqueryWithoutFields entity =>
    "The '" ++ entity ++ "' query used as a subquery must select at least one field"
  | missingAggregateField function =>
    "You must specify the field to perform the " ++ function.sql ++ " operation"
  | missingEntity role =>
    "Query object must set an entity when used in a " ++ role.text ++ " operation"
  | unknownParameter name => "Statement references unknown parameter '" ++ name ++ "'"
  | configuration fault => "Configuration error: " ++ fault.text
  | connection text => "Connection error: " ++ text
  | execution fault => "Execution error: " ++ fault.text
  | cancelled completed total =>
    "Execution cancelled after " ++ toString completed ++ " of " ++ toString total ++ " units"
  | io reason => "IO error: " ++ reason

/-- Whether the failure lies in the model or its configuration, so that running again cannot
help. -/
def isConfiguration : Failure → Bool
  | unsupportedCombine _ | unknownConversion _ | missingUpdateFields _ | subqueryWithoutFields _
  | missingAggregateField _ | missingEntity _ | configuration _ => true
  | _ => false

end Failure

/-- A fault reported by the client library of the server. -/
inductive ServerFault where
  /-- No connection became free in time. -/
  | poolTimedOut
  /-- The connections have been closed. -/
  | poolClosed
  /-- The transport broke. -/
  | transport (reason : String)
  /-- No secured connection. -/
  | security (reason : String)
  /-- The connection cannot be set up as configured. -/
  | misconfigured (reason : String)
  /-- The worker that runs statements is gone. -/
  | workerCrashed
  /-- A row was expected. -/
  | rowNotFound
  /-- The server sent something unexpected. -/
  | malformedReply (reason : String)
  /-- No column of this name. -/
  | columnNotFound (name : String)
  /-- No type of this name. -/
  | typeNotFound (name : String)
  /-- No column of this number. -/
  | columnOutOfBounds (index size : Nat)
  deriving DecidableEq

namespace ServerFault

/-- Wording of a reported fault. -/
def text : ServerFault → String
  | poolTimedOut => "pool timed out while waiting for an open connection"
  | poolClosed => "attempted to acquire a connection on a closed pool"
  | transport reason => "error communicating with database: " ++ reason
  | security reason =>
    "error occurred while attempting to establish a TLS connection: " ++ reason
  | misconfigured reason => "error with configuration: " ++ reason
  | workerCrashed => "attempted to communicate with a crashed background worker"
  | rowNotFound => "no rows returned by a query that expected to return at least one row"
  | malformedReply reason => "encountered unexpected or invalid data: " ++ reason
  | columnNotFound name => "no column found for name: " ++ name
  | typeNotFound name => "type named " ++ name ++ " not found"
  | columnOutOfBounds index size =>
    "column index out of bounds: the len is " ++ toString size ++ ", but the index is "
      ++ toString index

/-- Whether no statement was reached. -/
def isConnection : ServerFault → Bool
  | poolTimedOut | poolClosed | transport _ | security _ | misconfigured _ => true
  | _ => false

/-- A reported fault as a failure: one of the connection or one of the execution. -/
def toFailure (fault : ServerFault) : Failure :=
  if fault.isConnection then .connection fault.text else .execution (.stated fault.text)

end ServerFault

end AbstractSql
