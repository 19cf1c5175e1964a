import AbstractSql.Catalog
import AbstractSql.Failure
import AbstractSql.Query.Building

/-!
# Set operations as joins

The server has UNION and UNION ALL. INTERSECT and EXCEPT become joins on the properties that make
two rows equal: an inner join keeps the rows that match, and a left join with a test for a missing
match keeps those that do not.
-/

namespace AbstractSql

/-- Operator of a set operation that the server has itself. -/
def SetOperator.native (operator : SetOperator) : Except Failure String :=
  if operator.isNative then .ok operator.sql else .error (.unsupportedCombine operator.sql)

/-- The properties that make two rows equal: the selected ones, else the primary key, else the
first queryable property. -/
def Catalog.matchedFields (c : Catalog) (target : Query) : Except Failure (List String) :=
  match target.fields with
  | field :: rest => .ok (field :: rest)
  | [] =>
    match c.primaryKeys target.entity with
    | key :: rest => .ok (key :: rest)
    | [] =>
      match c.queryFields target.entity with
      | field :: _ => .ok [field.property]
      | [] => .error (.configuration (.noMatchField target.entity))

namespace Combine

/-- The join that stands for a set operation whose rows are matched on the given properties, or
nothing when the server has the operator itself. -/
def matching? (entry : Combine) (fields : List String) : Option Join :=
  let pairs := fields.map fun f => (f, f)
  match entry.kind with
  | .union | .unionAll => none
  | .intersect => some { kind := .inner, fields := pairs, query := entry.query }
  | .except =>
    some { kind := .left, fields := pairs, query := entry.query,
           extra := fields.head?.map fun f => (Query.ofEntity entry.query.entity).isNull f }

/-- The join that stands for a set operation, or nothing when the server has the operator. -/
def asJoin (entry : Combine) (catalog : Catalog) : Except Failure (Option Join) :=
  if entry.kind.isNative then .ok none
  else if entry.query.entity = "" then .error (.missingEntity .combine)
  else (catalog.matchedFields entry.query).map entry.matching?

end Combine

namespace Catalog

/-- The joins that stand for the set operations of a list which the server does not have. -/
def matchingJoins (c : Catalog) : List Combine → Except Failure (List Join)
  | [] => .ok []
  | entry :: rest => do
    let join ← entry.asJoin c
    let joins ← c.matchingJoins rest
    return join.toList ++ joins

/-- The query with only the set operations that the server has, the others turned into joins after
its own. -/
def withoutMatching (c : Catalog) (q : Query) : Except Failure Query := do
  let joins ← c.matchingJoins q.combines
  return { q with
    joins := q.joins ++ joins
    combines := q.combines.filter fun entry => entry.kind.isNative }

end Catalog

end AbstractSql
