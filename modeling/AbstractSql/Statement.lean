import AbstractSql.Translation.OfQuery

/-!
# Read statements

A query can be read in five ways: its rows, a page of them with the total count, a range of them,
whether there are any, and an aggregate over them. All five translate the query under the main
alias and differ in what they select around the same clauses.
-/

namespace AbstractSql

open Identifier (quote qualify)

/-- Translate the main query of a statement. Aliases start again, the conditions on joined rows
become part of the condition, and the values bound anywhere in the query are collected. -/
def Query.translate (q : Query) (catalog : Catalog) (names : NameSupply) :
    Except Failure Translation × NameSupply :=
  let translated :=
    (q.translateUnder catalog true NameSupply.mainAlias).run.run { names := names.resetAliases }
  let workspace := translated.2
  (translated.1.map fun t => { t.mergeJoinExtras with parameters := workspace.parameters },
    workspace.names)

/-- A read statement. -/
structure Statement where
  /-- Statement text. -/
  text : String
  /-- What its placeholders stand for. -/
  parameters : ParameterSet
  deriving Inhabited

/-- A step that issues names and may fail. -/
abbrev Naming := ExceptT Failure (StateM NameSupply)

namespace Statement

/-- Rows on a page when the query does not say. -/
def defaultPageSize : Nat := 20

/-- Translate a query as a step. -/
def translated (catalog : Catalog) (q : Query) : Naming Translation := do
  let result := q.translate catalog (← get)
  set result.2
  match result.1 with
  | .ok t => return t
  | .error failure => throw failure

/-- A text query is its own statement; any other is put together from its clauses. -/
def ofTranslation (t : Translation) (text : Except Failure String) : Naming Statement :=
  match t.text with
  | some raw => return ⟨raw, t.parameters⟩
  | none =>
    match text with
    | .ok text => return ⟨text, t.parameters⟩
    | .error failure => throw failure

/-- Select of the given list from the table of a query, with its joins, condition and set
operations. -/
def baseSelect (catalog : Catalog) (q : Query) (t : Translation) (list : String) : String :=
  Text.joinParts
    ["SELECT " ++ list ++ " FROM " ++ quote (catalog.table q.entity) ++ " AS "
        ++ NameSupply.mainAlias,
      t.joinClause, t.whereClause, t.combineClause]

/-- Select list inside a derived table. -/
def innerList (catalog : Catalog) (q : Query) : String :=
  catalog.selectList NameSupply.mainAlias q.entity q.fields false

/-- Select list of the result. -/
def outputList (catalog : Catalog) (q : Query) : String :=
  catalog.selectList NameSupply.mainAlias q.entity q.fields true

/-- Select of `list` from a derived table that holds the rows of a query. -/
def selectFromDerived (catalog : Catalog) (q : Query) (t : Translation) (list : String) : String :=
  "SELECT " ++ list ++ " FROM (" ++ baseSelect catalog q t (innerList catalog q) ++ ") AS "
    ++ NameSupply.mainAlias

/-- The field that stands for the rows of a query. -/
def probeField (catalog : Catalog) (q : Query) : Except Failure Field :=
  match catalog.defaultField? q.entity with
  | some field => .ok field
  | none => .error (.configuration (.noProbeField q.entity))

/-- Text of a plain read. -/
def selectText (catalog : Catalog) (q : Query) (t : Translation) : String :=
  let body :=
    if t.hasCombine then selectFromDerived catalog q t (outputList catalog q)
    else baseSelect catalog q t (outputList catalog q)
  let limit := if q.size = 0 then "" else "LIMIT 0," ++ toString q.size.toNat
  Text.joinParts [t.definitionClause, body, t.orderClause, limit]

/-- The rows of a query. -/
def select (catalog : Catalog) (q : Query) : Naming Statement := do
  let t ← translated catalog q
  ofTranslation t (.ok (selectText catalog q t))

/-- Text of a range of rows with the total count, read from a common table. Without sort entries
the rows come in falling order of the field that stands for them. -/
def rangeText (catalog : Catalog) (q : Query) (t : Translation) (offset size : Nat)
    (probe : Field) : String :=
  let inner := baseSelect catalog q t (innerList catalog q)
  let definitions :=
    if t.hasDefinitions then t.definitionClause ++ ",PagingTable AS (" ++ inner ++ ")"
    else "WITH PagingTable AS (" ++ inner ++ ")"
  let order :=
    match t.sorts with
    | [] => qualify NameSupply.mainAlias probe.column ++ " DESC"
    | sorts => String.intercalate "," sorts
  definitions ++ " SELECT (SELECT COUNT(" ++ quote probe.column
    ++ ") FROM PagingTable) AS QueryDataTotalCount," ++ outputList catalog q
    ++ " FROM PagingTable AS " ++ NameSupply.mainAlias ++ " ORDER BY " ++ order ++ " LIMIT "
    ++ toString offset ++ "," ++ toString size

/-- `size` rows of a query from number `offset` on, with the total count in each. -/
def range (catalog : Catalog) (q : Query) (offset size : Nat) : Naming Statement := do
  let t ← translated catalog q
  ofTranslation t ((probeField catalog q).map (rangeText catalog q t offset size))

/-- Offset and size of the page a query asks for; the first page of the default size if it asks
for none or for an empty one. -/
def pageRange (q : Query) : Nat × Nat :=
  match q.paging with
  | some p => if p.size = 0 then (0, defaultPageSize) else (p.offset, p.size.toNat)
  | none => (0, defaultPageSize)

/-- The page a query asks for. -/
def paging (catalog : Catalog) (q : Query) : Naming Statement :=
  range catalog q (pageRange q).1 (pageRange q).2

/-- Properties that stand for the rows of a query: the primary key, else all queryable ones. -/
def keyFields (catalog : Catalog) (q : Query) : Except Failure (List String) :=
  match catalog.primaryKeys q.entity with
  | key :: rest => .ok (key :: rest)
  | [] =>
    match (catalog.queryFields q.entity).map (·.property) with
    | property :: rest => .ok (property :: rest)
    | [] => (probeField catalog q).map fun field => [field.property]

/-- A step that has nothing to do with names. -/
def settled {α : Type} (result : Except Failure α) : Naming α :=
  match result with
  | .ok a => return a
  | .error failure => throw failure

/-- Text of a test for rows. -/
def existsText (catalog : Catalog) (probe : Query) (t : Translation) : String :=
  Text.joinParts
    [t.definitionClause,
      "SELECT EXISTS(" ++ baseSelect catalog probe t (innerList catalog probe) ++ ")"]

/-- Whether a query has rows. -/
def existence (catalog : Catalog) (q : Query) : Naming Statement := do
  let probe := { q with fields := ← settled (keyFields catalog q) }
  let t ← translated catalog probe
  ofTranslation t (.ok (existsText catalog probe t))

/-- The field an aggregate runs over: the one that stands for the rows when they are counted, the
first selected one otherwise. -/
def aggregateField (catalog : Catalog) (function : Aggregate) (q : Query) :
    Except Failure Field :=
  match function with
  | .count => probeField catalog q
  | _ =>
    match q.fields with
    | property :: _ => .ok (catalog.field q.entity property)
    | [] => .error (.missingAggregateField function)

/-- The query an aggregate runs over. With set operations all sides select the primary key and the
field, so that the combined rows carry the field. -/
def aggregateSource (catalog : Catalog) (field : Field) (q : Query) : Query :=
  if q.combines.isEmpty then q
  else
    let keys := catalog.primaryKeys q.entity
    let selected := if keys.contains field.property then keys else keys ++ [field.property]
    { q with
      fields := selected
      combines := q.combines.map fun entry =>
        if entry.kind.isNative then { entry with query := { entry.query with fields := selected } }
        else entry }

/-- Text of an aggregate. -/
def aggregateText (catalog : Catalog) (function : Aggregate) (field : Field) (source : Query)
    (t : Translation) : String :=
  let expression :=
    function.sql ++ "(" ++ qualify NameSupply.mainAlias field.column ++ ")"
  if t.hasCombine then
    Text.joinParts [t.definitionClause, selectFromDerived catalog source t expression]
  else
    Text.joinParts
      [t.definitionClause,
        "SELECT " ++ expression ++ " FROM " ++ quote (catalog.table source.entity) ++ " AS "
          ++ NameSupply.mainAlias,
        t.joinClause, t.whereClause]

/-- An aggregate over the rows of a query. -/
def aggregate (catalog : Catalog) (function : Aggregate) (q : Query) : Naming Statement := do
  let field ← settled (aggregateField catalog function q)
  let source := aggregateSource catalog field q
  let t ← translated catalog source
  ofTranslation t (.ok (aggregateText catalog function field source t))

end Statement

/-- A way to read a query. -/
inductive ReadMode where
  /-- Its rows. -/
  | select
  /-- The page it asks for. -/
  | paging
  /-- A range of its rows. -/
  | range (offset size : Nat)
  /-- Whether it has rows. -/
  | existence
  /-- An aggregate over its rows. -/
  | aggregate (function : Aggregate)
  deriving DecidableEq

/-- The statement that reads a query in a given way. -/
def Statement.read (catalog : Catalog) (mode : ReadMode) (q : Query) : Naming Statement :=
  match mode with
  | .select => select catalog q
  | .paging => paging catalog q
  | .range offset size => range catalog q offset size
  | .existence => existence catalog q
  | .aggregate function => aggregate catalog function q

end AbstractSql
