import AbstractSql.Projection
import AbstractSql.Translation.SetOperation
import AbstractSql.Translation.Workspace

/-!
# Translating queries

`Query.translateUnder` turns a query into clauses under a given alias. Conditions come first, then
the set operations the server has, then the joins, and last the closure, which takes the condition
and the joins found so far as its first rows. The recursion follows the query itself; the steps
that put clauses together take the translation of a part as an argument.
-/

namespace AbstractSql

open Identifier (quote qualify under)

/-- Conditions rendered so far, without their last connector. -/
structure ConditionList where
  /-- Rendered conditions joined by their connectors. -/
  text : String := ""
  /-- Whether one of these connectors is an OR. -/
  hasOr : Bool := false
  /-- Definitions of closure tables. -/
  definitions : List String := []
  /-- The closure table defined last. -/
  closure : Option ClosureTable := none

/-- Add a rendered condition. One that is empty is passed over with its connector, and the first
one that is not empty is written without its connector. -/
def ConditionList.push (list : ConditionList) (connector : Connector)
    (fragment : ConditionFragment) : ConditionList :=
  let lifted :=
    { list with
      definitions := list.definitions ++ fragment.definitions
      closure := fragment.closure.or list.closure }
  if fragment.text = "" then lifted
  else if list.text = "" then { lifted with text := fragment.text }
  else
    { lifted with
      text := list.text ++ " " ++ connector.sql ++ " " ++ fragment.text
      hasOr := list.hasOr || connector == .or }

/-- The conditions of a group as one: in parentheses, unless there is nothing to test. -/
def ConditionList.grouped (list : ConditionList) : ConditionFragment :=
  { text := if list.text = "" then "" else "(" ++ list.text ++ ")"
    definitions := list.definitions
    closure := list.closure }

/-- The conditions of a query as the start of its translation. -/
def ConditionList.toTranslation (list : ConditionList) : Translation :=
  { condition := list.text
    hasOr := list.hasOr
    definitions := list.definitions
    closure := list.closure }

/-- Where the rows of a subquery are limited. -/
inductive SubqueryLimit where
  /-- Nowhere. -/
  | none
  /-- At the select itself, which then has one row. -/
  | firstRow
  /-- In a derived table, since a membership test takes no limited select. -/
  | derived (size : UInt64)
  deriving DecidableEq

/-- A comparison other than membership looks at one row; membership looks at all rows up to the
size of the subquery. -/
def SubqueryLimit.of (operator : Comparison) (size : UInt64) : SubqueryLimit :=
  if operator.isMembership then (if size = 0 then .none else .derived size) else .firstRow

/-- Text of a limit. -/
def SubqueryLimit.clause : SubqueryLimit → String
  | none => ""
  | firstRow => "LIMIT 0,1"
  | derived size => "LIMIT 0," ++ toString size.toNat

/-- The derived table that holds the rows of a translated query and of its set operations. -/
def Catalog.combinedSource (c : Catalog) (query : Query) (translated : Translation)
    (innerAlias outerAlias : String) : String :=
  "(" ++ Text.joinParts
    ["SELECT " ++ c.selectList innerAlias query.entity query.fields false ++ " FROM "
        ++ quote (c.table query.entity) ++ " AS " ++ innerAlias,
      translated.joinClause, translated.whereClause, translated.combineClause]
    ++ ") AS " ++ outerAlias

namespace Translating

/-- A comparison with a statement text. -/
def textComparison (field : String) (operator : Comparison) (translated : Translation) :
    ConditionFragment :=
  { text := field ++ " " ++ operator.sql ++ " (" ++ translated.text.getD "" ++ ")" }

/-- The rows of a subquery: a derived table with set operations, else its table and clauses. -/
def comparedRows (catalog : Catalog) (subquery : Query) (tableAlias : String)
    (translated : Translation) : String :=
  if translated.hasCombine then catalog.combinedSource subquery translated tableAlias tableAlias
  else Text.joinParts
    [quote (catalog.table subquery.entity) ++ " AS " ++ tableAlias,
      translated.joinClause, translated.whereClause]

/-- The select of a subquery, with its limit where a comparison takes one. -/
def comparedSelect (catalog : Catalog) (limit : SubqueryLimit) (subquery : Query)
    (property tableAlias : String) (translated : Translation) : String :=
  let column := catalog.column subquery.entity property
  let select := Text.joinParts
    ["SELECT " ++ qualify tableAlias column ++ " FROM "
        ++ comparedRows catalog subquery tableAlias translated,
      translated.orderClause, limit.clause]
  match limit with
  | .derived _ => "SELECT " ++ quote column ++ " FROM (" ++ select ++ ") AS S" ++ tableAlias
  | _ => select

/-- A comparison with the rows of a subquery. -/
def subqueryComparison (catalog : Catalog) (field : String) (operator : Comparison)
    (subquery : Query) (property tableAlias : String) (translated : Translation) :
    ConditionFragment :=
  let limit := SubqueryLimit.of operator subquery.size
  let compared := comparedSelect catalog limit subquery property tableAlias translated
  { text := field ++ " " ++ operator.sql ++ " (" ++ compared ++ ")"
    definitions := translated.definitions
    closure := translated.closure }

/-- A comparison with a bound value. -/
def valueComparison (field : String) (criterion : Criterion) (value : Value) :
    Translating ConditionFragment := do
  let name ← bindFresh criterion.field (criterion.operator.shapeValue value)
  return { text := field ++ " " ++ criterion.operator.sql ++ " " ++ Identifier.placeholder name }

/-- A comparison with another query: with its text, or with its rows under a new alias. Rows are
sorted only where they are limited. -/
def queryComparison (catalog : Catalog) (field : String) (operator : Comparison) (query : Query)
    (translate : Bool → String → Translating Translation) : Translating ConditionFragment :=
  if query.isText then do
    let translated ← translate false ""
    return textComparison field operator translated
  else
    match query.fields with
    | [] => throw (.subqueryWithoutFields query.entity)
    | property :: _ => do
      let tableAlias ← nextAlias
      let useSort := SubqueryLimit.of operator query.size != .none
      let translated ← translate useSort tableAlias
      return subqueryComparison catalog field operator query property tableAlias translated

/-- Sort entries of a query. -/
def sortEntries (catalog : Catalog) (entity tableAlias : String) :
    List SortKey → Except Failure (List String)
  | [] => .ok []
  | key :: rest => do
    let field ← catalog.reference entity tableAlias key.field key.conversion
    let entries ← sortEntries catalog entity tableAlias rest
    return (field ++ (if key.desc then " DESC" else " ASC")) :: entries

/-- Sort entries of a query where they are asked for, and none elsewhere. -/
def requestedSorts (catalog : Catalog) (useSort : Bool) (entity tableAlias : String)
    (sorts : List SortKey) : Except Failure (List String) :=
  if useSort then sortEntries catalog entity tableAlias sorts else .ok []

/-- Select that a set operation combines with. The select list follows the selection of the source,
so that the columns of both line up. -/
def combineSelect (catalog : Catalog) (source target : Query) (tableAlias : String)
    (translated : Translation) : String :=
  translated.text.getD (Text.joinParts
    ["SELECT " ++ catalog.selectList tableAlias source.entity source.fields false ++ " FROM "
        ++ quote (catalog.table target.entity) ++ " AS " ++ tableAlias,
      translated.joinClause, translated.whereClause])

/-- Add a set operation that the server has. -/
def addCombine (catalog : Catalog) (source : Query) (entry : Combine)
    (translate : String → Translating Translation) (out : Translation) :
    Translating Translation := do
  ensure (entry.query.entity != "" || entry.query.isText) (.missingEntity .combine)
  let operator ← lift entry.kind.native
  let tableAlias ← nextAlias
  let translated ← translate tableAlias
  let select := combineSelect catalog source entry.query tableAlias translated
  return ({ out with combines := out.combines ++ [operator ++ " " ++ select] }).absorb translated

/-- Add a set operation if the server has it; one that it does not have is left to the joins. -/
def addNative (catalog : Catalog) (source : Query) (entry : Combine)
    (translate : String → Translating Translation) (out : Translation) :
    Translating Translation :=
  if entry.kind.isNative then addCombine catalog source entry translate out else pure out

/-- Pairs of properties that a join compares: the given ones, else the primary key of an entity
joined with itself, else the relation declared from source to target, else the one declared from
target to source, turned around. -/
def joinPairs (catalog : Catalog) (source : String) (join : Join) : List (String × String) :=
  let target := join.query.entity
  match join.fields with
  | pair :: rest => pair :: rest
  | [] =>
    if source = target then (catalog.primaryKeys source).map fun key => (key, key)
    else
      match catalog.relationFields source target with
      | pair :: rest => pair :: rest
      | [] => (catalog.relationFields target source).map fun pair => (pair.2, pair.1)

/-- Column comparisons of a join; a cross join has none, and a pair with an empty side is passed
over. -/
def joinConditions (catalog : Catalog) (source : String) (join : Join)
    (sourceAlias targetAlias : String) : List String :=
  if join.kind = .cross then []
  else
    let pairs := (joinPairs catalog source join).filter fun pair => pair.1 != "" && pair.2 != ""
    pairs.map fun pair =>
      qualify sourceAlias (catalog.column source pair.1) ++ " " ++ join.operator.sql ++ " "
        ++ qualify targetAlias (catalog.column join.query.entity pair.2)

/-- Text of a join clause. -/
def joinText (join : Join) (target : String) (conditions : List String) : String :=
  join.kind.sql ++ " " ++ target
    ++ match conditions with
      | [] => ""
      | conditions => " ON " ++ String.intercalate " AND " conditions

/-- Whether the condition of a joined query is tested in its ON clause. -/
def testsInJoin (join : Join) (translated : Translation) : Bool :=
  !translated.hasCombine && translated.condition != "" && translated.allowJoin
    && join.kind != .cross

/-- Conditions of a joined query that go into the outer condition: its own, unless the join tests
it, and those on the rows it joins itself. -/
def liftConditions (join : Join) (translated out : Translation) : Translation :=
  if translated.hasCombine then out
  else
    let own :=
      if translated.condition != "" && !testsInJoin join translated then
        out.andCondition translated.condition
      else out
    translated.joinExtras.foldl Translation.andCondition own

/-- Add the condition on joined rows that belongs to the outer statement. -/
def addExtra (extra out : Translation) : Translation :=
  let kept :=
    if extra.condition = "" then out
    else { out with joinExtras := out.joinExtras ++ [extra.condition] }
  kept.absorb extra

/-- Joins of a joined query follow its own clause, unless they are written elsewhere. -/
def liftJoins (translated out : Translation) : Translation :=
  if !translated.hasCombine && translated.allowJoin then
    { out with joins := out.joins ++ translated.joins }
  else out

/-- The joined rows: a table, or the derived table of a query with set operations of its own. -/
def joinTarget (catalog : Catalog) (join : Join) (translated : Translation)
    (joinAlias targetAlias : String) : String :=
  if translated.hasCombine then
    catalog.combinedSource join.query translated joinAlias targetAlias
  else quote (catalog.table join.query.entity) ++ " AS " ++ joinAlias

/-- Alias of the joined rows. A derived table takes a new one. -/
def joinedAlias (translated : Translation) (joinAlias : String) : Translating String :=
  if translated.hasCombine then nextAlias else pure joinAlias

/-- Write a join after the joins so far. -/
def writeJoin (catalog : Catalog) (source tableAlias : String) (join : Join)
    (joinAlias targetAlias : String) (translated out : Translation) : Translation :=
  let lifted := liftConditions join translated out
  let conditions := joinConditions catalog source join tableAlias targetAlias
    ++ if testsInJoin join translated then [translated.condition] else []
  let target := joinTarget catalog join translated joinAlias targetAlias
  { lifted with joins := lifted.joins ++ [joinText join target conditions] }

/-- Add the condition on joined rows that belongs to the outer statement, if there is one. -/
def requireExtra (translateExtra : Option (String → Translating Translation)) (targetAlias : String)
    (out : Translation) : Translating Translation :=
  match translateExtra with
  | none => pure out
  | some translate => do
    let extra ← translate targetAlias
    return addExtra extra out

/-- Add a join. The joined query is translated under a new alias; with set operations of its own it
becomes a derived table under another one. -/
def addJoin (catalog : Catalog) (source tableAlias : String) (join : Join)
    (translate : String → Translating Translation)
    (translateExtra : Option (String → Translating Translation)) (out : Translation) :
    Translating Translation := do
  ensure (join.query.entity != "") (.missingEntity .join)
  let joinAlias ← nextAlias
  let translated ← translate joinAlias
  let targetAlias ← joinedAlias translated joinAlias
  let extended ← requireExtra translateExtra targetAlias
    (writeJoin catalog source tableAlias join joinAlias targetAlias translated out)
  return (liftJoins translated extended).absorb translated

/-- Translation of a test for a missing value, which neither binds a value nor issues a name. -/
def missingTest (catalog : Catalog) (entity property tableAlias : String) : Translation :=
  let column := qualify tableAlias (catalog.column entity property)
  { condition := column ++ " " ++ Comparison.isNull.sql }

/-- Add the join that stands for a set operation, if the server does not have the operation. The
test for a missing match takes the place of a condition on joined rows. -/
def addMatch (catalog : Catalog) (source tableAlias : String) (entry : Combine)
    (translate : String → Translating Translation) (out : Translation) :
    Translating Translation := do
  match ← lift (entry.asJoin catalog) with
  | none => return out
  | some join =>
    let property := (join.fields.head?.map (·.1)).getD ""
    let extra := join.extra.map fun _ tableAlias =>
      pure (missingTest catalog entry.query.entity property tableAlias)
    addJoin catalog source tableAlias join translate extra out

/-- Select of the two columns that a closure follows. -/
def closureSelect (catalog : Catalog) (entity tableAlias : String) (closure : Closure) : String :=
  "SELECT " ++ under tableAlias (catalog.column entity closure.dataField) ++ ","
    ++ under tableAlias (catalog.column entity closure.relationField)
    ++ " FROM " ++ quote (catalog.table entity) ++ " AS " ++ tableAlias

/-- Comparison of a row with the rows of a closure found so far. -/
def closureStep (catalog : Catalog) (entity tableAlias : String) (closure : Closure)
    (table : ClosureTable) : String :=
  let data := catalog.column entity closure.dataField
  let relation := catalog.column entity closure.relationField
  match closure.direction with
  | .up => under tableAlias data ++ "=" ++ under table.shortName relation
  | .down => under tableAlias relation ++ "=" ++ under table.shortName data

/-- Definition of a closure table: its first rows, and the rows that follow from those found. -/
def closureDefinition (catalog : Catalog) (entity tableAlias : String) (closure : Closure)
    (table : ClosureTable) (joins : List String) (condition : String) : String :=
  let select := closureSelect catalog entity tableAlias closure
  let anchor := Text.joinParts [select, String.intercalate " " joins, condition]
  let step := select ++ " JOIN " ++ quote table.name ++ " AS " ++ table.shortName ++ " ON "
    ++ closureStep catalog entity tableAlias closure table
  table.name ++ " AS (" ++ anchor ++ " UNION ALL " ++ step ++ ")"

/-- Test for membership in a closure table. -/
def closureTest (catalog : Catalog) (entity tableAlias : String) (closure : Closure)
    (table : ClosureTable) : String :=
  let data := catalog.column entity closure.dataField
  under tableAlias data ++ " IN (SELECT " ++ under table.shortName data
    ++ " FROM " ++ quote table.name ++ " AS " ++ table.shortName ++ ")"

/-- Turn the condition and the joins into the first rows of a closure table, and require membership
in it. -/
def closeRows (catalog : Catalog) (entity tableAlias : String) (closure : Closure)
    (table : ClosureTable) (out : Translation) : Translation :=
  let merged := ({ out with allowJoin := false }).mergeJoinExtras
  { merged with
    definitions := merged.definitions
      ++ [closureDefinition catalog entity tableAlias closure table merged.joins merged.whereClause]
    condition := closureTest catalog entity tableAlias closure table
    hasOr := false
    closure := some table }

/-- Close the rows of a query in the next closure table. -/
def addClosure (catalog : Catalog) (entity tableAlias : String) (closure : Closure)
    (out : Translation) : Translating Translation := do
  let table ← nextClosure
  return closeRows catalog entity tableAlias closure table out

end Translating

open Translating

mutual

/-- Translate a query under an alias. A statement text is taken as it is. -/
def Query.translateUnder (catalog : Catalog) (useSort : Bool) :
    Query → String → Translating Translation
  | { text := some raw, .. }, _ => do
    bindText raw.parameters
    return Translation.ofText raw.text
  | { entity, text := none, conditions, sorts, joins, combines, recurve, paging, size, fields,
      isolation }, tableAlias => do
    let source : Query :=
      { entity, conditions, sorts, joins, combines, recurve, paging, size, fields, isolation }
    let _ ← lift (catalog.withoutMatching source)
    let list ← translateClauses catalog entity tableAlias conditions {}
    let sorted ← lift (requestedSorts catalog useSort entity tableAlias sorts)
    let combined ← translateCombines catalog source combines
      { list.toTranslation with sorts := sorted }
    let joined ← translateJoins catalog entity tableAlias joins combined
    let matched ← translateMatches catalog entity tableAlias combines joined
    match recurve with
    | none => pure matched
    | some closure => addClosure catalog entity tableAlias closure matched

/-- Translate conditions in order, after those of `list`. -/
def translateClauses (catalog : Catalog) (entity tableAlias : String) :
    List Clause → ConditionList → Translating ConditionList
  | [], list => pure list
  | ⟨connector, condition⟩ :: rest, list => do
    let fragment ← condition.translate catalog entity tableAlias
    translateClauses catalog entity tableAlias rest (list.push connector fragment)

/-- Translate one condition of an entity under an alias. A group of one condition is that
condition. -/
def Condition.translate (catalog : Catalog) (entity tableAlias : String) :
    Condition → Translating ConditionFragment
  | .group { conditions := [], .. } => pure {}
  | .group { conditions := [⟨_, only⟩], .. } => only.translate catalog entity tableAlias
  | .group { conditions := first :: second :: rest, .. } => do
    let list ← translateClauses catalog entity tableAlias (first :: second :: rest) {}
    return list.grouped
  | .criterion { field, operator, value := .value value, conversion } => do
    let reference ← lift (catalog.reference entity tableAlias field conversion)
    if operator.needsParameter then
      valueComparison reference { field, operator, value := .value value, conversion } value
    else return { text := reference ++ " " ++ operator.sql }
  | .criterion { field, operator, value := .query query, conversion } => do
    let reference ← lift (catalog.reference entity tableAlias field conversion)
    if operator.needsParameter then
      queryComparison catalog reference operator query fun useSort tableAlias =>
        query.translateUnder catalog useSort tableAlias
    else return { text := reference ++ " " ++ operator.sql }

/-- Translate the set operations that the server has. -/
def translateCombines (catalog : Catalog) (source : Query) :
    List Combine → Translation → Translating Translation
  | [], out => pure out
  | ⟨kind, query⟩ :: rest, out => do
    let next ← addNative catalog source ⟨kind, query⟩ (query.translateUnder catalog false) out
    translateCombines catalog source rest next

/-- Translate the joins of a query. -/
def translateJoins (catalog : Catalog) (source tableAlias : String) :
    List Join → Translation → Translating Translation
  | [], out => pure out
  | { kind, operator, fields, query, extra := none } :: rest, out => do
    let next ← addJoin catalog source tableAlias { kind, operator, fields, query }
      (query.translateUnder catalog false) none out
    translateJoins catalog source tableAlias rest next
  | { kind, operator, fields, query, extra := some extra } :: rest, out => do
    let next ← addJoin catalog source tableAlias
      { kind, operator, fields, query, extra := some extra }
      (query.translateUnder catalog false) (some (extra.translateUnder catalog false)) out
    translateJoins catalog source tableAlias rest next

/-- Translate the set operations that stand for joins. -/
def translateMatches (catalog : Catalog) (source tableAlias : String) :
    List Combine → Translation → Translating Translation
  | [], out => pure out
  | ⟨kind, query⟩ :: rest, out => do
    let next ← addMatch catalog source tableAlias ⟨kind, query⟩
      (query.translateUnder catalog false) out
    translateMatches catalog source tableAlias rest next

end

end AbstractSql
