import AbstractSql.Failure
import AbstractSql.Json.Record

/-!
# Failures in JSON

A failure is written as the name of its kind with its wording.
-/

namespace AbstractSql

/-- Aggregates by the name of their function. -/
def Aggregate.functions : List (String × Aggregate) :=
  [("COUNT", .count), ("MAX", .max), ("MIN", .min), ("SUM", .sum), ("AVG", .avg)]

/-- Names of the aggregates. -/
def Aggregate.choices : List (String × Aggregate) :=
  [("Count", .count), ("Max", .max), ("Min", .min), ("Sum", .sum), ("Avg", .avg)]

/-- Roles of an entity by their word. -/
def EntityRole.choices : List (String × EntityRole) := [("join", .join), ("combine", .combine)]

namespace Failure

/-- Name of the kind of a failure. -/
def kind : Failure → String
  | unsupportedCombine _ => "UnsupportedCombine"
  | unknownConversion _ => "UnknownConversion"
  | missingUpdateFields _ => "MissingUpdateFields"
  | subqueryWithoutFields _ => "SubqueryWithoutFields"
  | missingAggregateField _ => "MissingAggregateField"
  | missingEntity _ => "MissingEntity"
  | unknownParameter _ => "UnknownParameter"
  | configuration _ => "Config"
  | connection _ => "Connection"
  | execution _ => "Execution"
  | cancelled _ _ => "Cancelled"
  | io _ => "Io"

/-- The failure of a kind that is about one text: a name, an entity, a function or a wording. -/
def ofKind? (kind text : String) : Option Failure :=
  match kind with
  | "UnsupportedCombine" => some (unsupportedCombine text)
  | "UnknownConversion" => some (unknownConversion text)
  | "MissingUpdateFields" => some (missingUpdateFields text)
  | "SubqueryWithoutFields" => some (subqueryWithoutFields text)
  | "MissingAggregateField" => (Aggregate.functions.lookup text).map missingAggregateField
  | "MissingEntity" => (EntityRole.choices.lookup text).map missingEntity
  | "UnknownParameter" => some (unknownParameter text)
  | "Config" => some (configuration (.stated text))
  | "Connection" => some (connection text)
  | "Execution" => some (execution (.stated text))
  | _ => none

/-- Whether the wording of a failure comes from outside: from the file system, or from the reader
of a document, whose faults all begin alike. -/
def isForeign : Failure → Bool
  | io _ => true
  | configuration fault => fault.text.startsWith "invalid e"
  | _ => false

/-- Members of a failure in JSON. A wording from outside is left out. -/
def toMembers (failure : Failure) : List (String × Json) :=
  ("error", .string failure.kind)
    :: if failure.isForeign then [] else [("message", .string failure.message)]

/-- Form of a failure in JSON. -/
def toJson (failure : Failure) : Json := .object failure.toMembers

end Failure

end AbstractSql
