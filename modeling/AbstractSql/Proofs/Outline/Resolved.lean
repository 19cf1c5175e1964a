import AbstractSql.Proofs.Outline.Clauses

/-!
# Queries with their names

Translating a query issues names as it goes. Here the two are taken apart: a resolved query has the
shape of the query, with every name issued and every table and column looked up, so that what is
written is a function of it. Names are issued and values bound in the order of the translation.
-/

namespace AbstractSql

mutual

/-- A query whose names are issued and looked up. The alias that it is translated under is known to
whoever embeds it. -/
structure ResolvedQuery where
  /-- The table. -/
  table : String
  /-- Columns that a select of it lists. -/
  columns : List String
  /-- Statement text that stands in for everything else. -/
  text : Option String := none
  /-- Conditions on the rows. -/
  conditions : List ResolvedClause := []
  /-- Sort entries. -/
  sorts : List String := []
  /-- Set operations that the server has. -/
  arms : List ResolvedArm := []
  /-- Joins, those that stand for set operations at the end. -/
  joins : List ResolvedJoin := []
  /-- Closure of the selected rows. -/
  closure : Option ResolvedClosure := none

/-- A condition with the connector in front of it. -/
structure ResolvedClause where
  /-- The connector. -/
  connector : Connector
  /-- The condition. -/
  condition : ResolvedCondition

/-- A node of the predicate tree. -/
inductive ResolvedCondition where
  /-- A comparison. -/
  | criterion (criterion : ResolvedCriterion)
  /-- Conditions that are taken together. -/
  | group (clauses : List ResolvedClause)

/-- A comparison of a column. -/
inductive ResolvedCriterion where
  /-- A test for a missing value. -/
  | missing (reference : Reference) (operator : Comparison)
  /-- A comparison with a bound value. -/
  | value (reference : Reference) (operator : Comparison) (parameter : String)
  /-- A comparison with a statement text. -/
  | text (reference : Reference) (operator : Comparison) (raw : String)
  /-- A comparison with a column of another query under an alias. -/
  | rows (reference : Reference) (operator : Comparison) (limit : SubqueryLimit)
      (column tableAlias : String) (query : ResolvedQuery)

/-- A set operation that the server has. -/
structure ResolvedArm where
  /-- The operator. -/
  operator : SetOperator
  /-- Columns that its select lists. -/
  columns : List String
  /-- Alias of the other query. -/
  tableAlias : String
  /-- The other query. -/
  query : ResolvedQuery

/-- A joined query. -/
structure ResolvedJoin where
  /-- How rows are matched. -/
  kind : JoinKind
  /-- How matched columns are compared. -/
  operator : JoinOperator
  /-- Compared columns of the source and of the target. -/
  pairs : List (String × String)
  /-- Alias that the joined query is translated under. -/
  innerAlias : String
  /-- The joined query. -/
  query : ResolvedQuery
  /-- Alias of the derived table that a joined query with set operations becomes; the same alias
  where it has none. -/
  outerAlias : String
  /-- Conditions on the joined rows that belong to the outer statement. -/
  extra : Option ResolvedQuery := none

end

/-- Whether a query has set operations that the server has too. -/
def ResolvedQuery.hasArms (r : ResolvedQuery) : Bool := r.text.isNone && !r.arms.isEmpty

/-- Whether the joins of a query are written with it, and not into a closure. -/
def ResolvedQuery.keepsJoins (r : ResolvedQuery) : Bool := r.text.isSome || r.closure.isNone

/-- Alias of the joined rows. -/
def ResolvedJoin.targetAlias (join : ResolvedJoin) : String :=
  if join.query.hasArms then join.outerAlias else join.innerAlias

namespace Translating

/-- Columns of the selected properties. -/
def resolveColumns (catalog : Catalog) (entity : String) (fields : List String) : List String :=
  (catalog.selectedFields entity fields).map (·.column)

/-- The left-hand side of a test. -/
def resolveReference (catalog : Catalog) (entity property : String)
    (conversion : Option Conversion) : Except Failure Reference :=
  let column := catalog.column entity property
  match conversion with
  | some conversion =>
    if conversion.name = Conversion.stringLength.name then .ok { column, counted := true }
    else .error (.unknownConversion conversion.name)
  | none => .ok { column }

/-- A comparison with another query. -/
def resolveCompared (catalog : Catalog) (reference : Reference) (operator : Comparison)
    (query : Query) (resolve : Bool → String → Translating ResolvedQuery) :
    Translating ResolvedCriterion :=
  if query.isText then do
    let resolved ← resolve false ""
    return .text reference operator (resolved.text.getD "")
  else
    match query.fields with
    | [] => throw (.subqueryWithoutFields query.entity)
    | property :: _ => do
      let tableAlias ← nextAlias
      let limit := SubqueryLimit.of operator query.size
      let resolved ← resolve (limit != .none) tableAlias
      return .rows reference operator limit (catalog.column query.entity property) tableAlias
        resolved

/-- A set operation, if the server has it. -/
def resolveArm (catalog : Catalog) (source : Query) (entry : Combine)
    (resolve : String → Translating ResolvedQuery) : Translating (List ResolvedArm) :=
  if entry.kind.isNative then do
    ensure (entry.query.entity != "" || entry.query.isText) (.missingEntity .combine)
    let _ ← lift entry.kind.native
    let tableAlias ← nextAlias
    let resolved ← resolve tableAlias
    return [⟨entry.kind, resolveColumns catalog source.entity source.fields, tableAlias, resolved⟩]
  else pure []

/-- Compared columns of a join. -/
def resolvePairs (catalog : Catalog) (source : String) (join : Join) : List (String × String) :=
  if join.kind = .cross then []
  else
    let pairs := (joinPairs catalog source join).filter fun pair => pair.1 != "" && pair.2 != ""
    pairs.map fun pair =>
      (catalog.column source pair.1, catalog.column join.query.entity pair.2)

/-- The condition on joined rows that belongs to the outer statement, if there is one. -/
def resolveExtra (resolve : Option (String → Translating ResolvedQuery)) (targetAlias : String) :
    Translating (Option ResolvedQuery) :=
  match resolve with
  | none => pure none
  | some resolve => do
    let resolved ← resolve targetAlias
    return some resolved

/-- Alias of the joined rows. A derived table takes a new one. -/
def resolveAlias (resolved : ResolvedQuery) (innerAlias : String) : Translating String :=
  if resolved.hasArms then nextAlias else pure innerAlias

/-- A join. -/
def resolveJoin (catalog : Catalog) (source : String) (join : Join)
    (resolve : String → Translating ResolvedQuery)
    (extra : Option (String → Translating ResolvedQuery)) : Translating ResolvedJoin := do
  ensure (join.query.entity != "") (.missingEntity .join)
  let innerAlias ← nextAlias
  let query ← resolve innerAlias
  let outerAlias ← resolveAlias query innerAlias
  let extra ← resolveExtra extra outerAlias
  return { kind := join.kind, operator := join.operator, pairs := resolvePairs catalog source join,
           innerAlias, query, outerAlias, extra }

/-- A test for a missing value as a query. -/
def resolveMissing (catalog : Catalog) (entity property : String) : ResolvedQuery :=
  { table := catalog.table entity
    columns := []
    conditions :=
      [⟨.and, .criterion (.missing { column := catalog.column entity property } .isNull)⟩] }

/-- The join that stands for a set operation, if the server does not have the operation. -/
def resolveMatch (catalog : Catalog) (source : String) (entry : Combine)
    (resolve : String → Translating ResolvedQuery) : Translating (List ResolvedJoin) := do
  match ← lift (entry.asJoin catalog) with
  | none => return []
  | some join =>
    let property := (join.fields.head?.map (·.1)).getD ""
    let extra := join.extra.map fun _ _ =>
      pure (resolveMissing catalog entry.query.entity property)
    let resolved ← resolveJoin catalog source join resolve extra
    return [resolved]

/-- A closure with the next closure table. -/
def resolveClosure (catalog : Catalog) (entity : String) (closure : Option Closure) :
    Translating (Option ResolvedClosure) :=
  match closure with
  | none => pure none
  | some closure => do
    let table ← nextClosure
    return some { table, direction := closure.direction,
                  data := catalog.column entity closure.dataField,
                  relation := catalog.column entity closure.relationField }

end Translating

open Translating

mutual

/-- Issue the names of a query. -/
def Query.resolve (catalog : Catalog) (useSort : Bool) :
    Query → String → Translating ResolvedQuery
  | { entity, text := some raw, fields, .. }, _ => do
    bindText raw.parameters
    return { table := catalog.table entity, columns := resolveColumns catalog entity fields,
             text := some raw.text }
  | { entity, text := none, conditions, sorts, joins, combines, recurve, paging, size, fields,
      isolation }, tableAlias => do
    let source : Query :=
      { entity, conditions, sorts, joins, combines, recurve, paging, size, fields, isolation }
    let _ ← lift (catalog.withoutMatching source)
    let conditions ← resolveClauses catalog entity conditions
    let sorts ← lift (requestedSorts catalog useSort entity tableAlias sorts)
    let arms ← resolveArms catalog source combines
    let joins ← resolveJoins catalog entity joins
    let matched ← resolveMatches catalog entity combines
    let closure ← resolveClosure catalog entity recurve
    return { table := catalog.table entity, columns := resolveColumns catalog entity fields,
             conditions, sorts, arms, joins := joins ++ matched, closure }

/-- Issue the names of conditions. -/
def resolveClauses (catalog : Catalog) (entity : String) :
    List Clause → Translating (List ResolvedClause)
  | [] => pure []
  | ⟨connector, condition⟩ :: rest => do
    let resolved ← condition.resolve catalog entity
    let others ← resolveClauses catalog entity rest
    return ⟨connector, resolved⟩ :: others

/-- Issue the names of a condition. -/
def Condition.resolve (catalog : Catalog) (entity : String) :
    Condition → Translating ResolvedCondition
  | .group { conditions, .. } => do
    let clauses ← resolveClauses catalog entity conditions
    return .group clauses
  | .criterion { field, operator, value := .value value, conversion } => do
    let reference ← lift (resolveReference catalog entity field conversion)
    if operator.needsParameter then do
      let parameter ← bindFresh field (operator.shapeValue value)
      return .criterion (.value reference operator parameter)
    else return .criterion (.missing reference operator)
  | .criterion { field, operator, value := .query query, conversion } => do
    let reference ← lift (resolveReference catalog entity field conversion)
    if operator.needsParameter then do
      let criterion ← resolveCompared catalog reference operator query fun useSort tableAlias =>
        query.resolve catalog useSort tableAlias
      return .criterion criterion
    else return .criterion (.missing reference operator)

/-- Issue the names of the set operations that the server has. -/
def resolveArms (catalog : Catalog) (source : Query) :
    List Combine → Translating (List ResolvedArm)
  | [] => pure []
  | ⟨kind, query⟩ :: rest => do
    let arm ← resolveArm catalog source ⟨kind, query⟩ (query.resolve catalog false)
    let others ← resolveArms catalog source rest
    return arm ++ others

/-- Issue the names of joins. -/
def resolveJoins (catalog : Catalog) (source : String) :
    List Join → Translating (List ResolvedJoin)
  | [] => pure []
  | { kind, operator, fields, query, extra := none } :: rest => do
    let resolved ← resolveJoin catalog source { kind, operator, fields, query }
      (query.resolve catalog false) none
    let others ← resolveJoins catalog source rest
    return resolved :: others
  | { kind, operator, fields, query, extra := some extra } :: rest => do
    let resolved ← resolveJoin catalog source
      { kind, operator, fields, query, extra := some extra }
      (query.resolve catalog false) (some (extra.resolve catalog false))
    let others ← resolveJoins catalog source rest
    return resolved :: others

/-- Issue the names of the set operations that stand for joins. -/
def resolveMatches (catalog : Catalog) (source : String) :
    List Combine → Translating (List ResolvedJoin)
  | [] => pure []
  | ⟨kind, query⟩ :: rest => do
    let matched ← resolveMatch catalog source ⟨kind, query⟩ (query.resolve catalog false)
    let others ← resolveMatches catalog source rest
    return matched ++ others

end

end AbstractSql
