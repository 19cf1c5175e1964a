import AbstractSql.Proofs.Predicate.Conjunction
import AbstractSql.Translation.OfQuery

/-!
# Clauses in parts

A translated query consists of texts. Here are the parts that these texts are put together from:
tests, joined tables, selects, set operations and definitions of closure tables, and how each of
them is written. So what a clause refers to can be asked of its parts.
-/

namespace AbstractSql

open Identifier (quote qualify under)

/-- A column under the alias of its table. -/
structure ColumnUse where
  /-- The alias. -/
  tableAlias : String
  /-- The column. -/
  column : String
  deriving DecidableEq

/-- How a column is written. -/
def ColumnUse.sql (c : ColumnUse) : String := qualify c.tableAlias c.column

/-- The left-hand side of a test: a column, or the number of its characters. -/
structure Reference where
  /-- The column. -/
  column : String
  /-- Whether its characters are counted. -/
  counted : Bool := false
  deriving DecidableEq

/-- How the left-hand side of a test is written under an alias. -/
def Reference.sql (tableAlias : String) (r : Reference) : String :=
  if r.counted then "CHAR_LENGTH(" ++ qualify tableAlias r.column ++ ")"
  else qualify tableAlias r.column

mutual

/-- A test of rows: an atom of a condition. -/
inductive Test where
  /-- For a missing value. -/
  | missing (tableAlias : String) (reference : Reference) (operator : Comparison)
  /-- With a bound value. -/
  | value (tableAlias : String) (reference : Reference) (operator : Comparison)
      (parameter : String)
  /-- With the rows of a statement text. -/
  | text (tableAlias : String) (reference : Reference) (operator : Comparison) (raw : String)
  /-- With one column of a select. -/
  | rows (tableAlias : String) (reference : Reference) (operator : Comparison)
      (limit : SubqueryLimit) (sorts : List String) (column : String) (select : Select)
  /-- Of a column with one of another table. -/
  | pair (left : ColumnUse) (operator : JoinOperator) (right : ColumnUse)
  /-- For membership in a closure table. -/
  | member (column : ColumnUse) (table : ClosureTable)

/-- A select from a table, with the tables joined to it. -/
structure Select where
  /-- The selected columns; all when there are none. -/
  columns : List String
  /-- The table. -/
  table : String
  /-- Its alias. -/
  tableAlias : String
  /-- The joined tables. -/
  joins : List JoinClause
  /-- The condition on the rows. -/
  condition : List (Lexeme Test)
  /-- Set operations after it. -/
  arms : List Arm

/-- A joined table. -/
structure JoinClause where
  /-- How rows are matched. -/
  kind : JoinKind
  /-- Where the rows come from. -/
  source : JoinSource
  /-- The alias that the clause introduces. -/
  tableAlias : String
  /-- What the rows are matched on. -/
  on : List (Lexeme Test)

/-- Where joined rows come from. -/
inductive JoinSource where
  /-- From a table. -/
  | table (name : String)
  /-- From a derived table. -/
  | derived (select : Select)

/-- A set operation. -/
inductive Arm where
  /-- With a select. -/
  | select (operator : SetOperator) (select : Select)
  /-- With a statement text. -/
  | text (operator : SetOperator) (raw : String)

end

/-- Columns of a select under its alias. -/
def selectColumns (tableAlias : String) (columns : List String) : String :=
  match columns with
  | [] => tableAlias ++ ".*"
  | columns => String.intercalate "," (columns.map (qualify tableAlias))

/-- The text of a select around its written clauses. -/
def selectText (columns : List String) (table tableAlias : String) (joins : List String)
    (condition : String) (arms : List String) : String :=
  Text.joinParts
    ["SELECT " ++ selectColumns tableAlias columns ++ " FROM " ++ quote table ++ " AS "
        ++ tableAlias,
      String.intercalate " " joins, Translation.whereClause { condition },
      String.intercalate " " arms]

/-- The rows of a select in a comparison: those of its table, or with set operations of a derived
table. -/
def selectRows (columns : List String) (table tableAlias : String) (joins : List String)
    (condition : String) (arms : List String) : String :=
  if arms.isEmpty then
    Text.joinParts
      [quote table ++ " AS " ++ tableAlias, String.intercalate " " joins,
        Translation.whereClause { condition }]
  else "(" ++ selectText columns table tableAlias joins condition arms ++ ") AS " ++ tableAlias

/-- The text of one column of these rows, limited where a comparison asks for it. -/
def comparedText (limit : SubqueryLimit) (sorts : List String) (column tableAlias rows : String) :
    String :=
  let select := Text.joinParts
    ["SELECT " ++ qualify tableAlias column ++ " FROM " ++ rows,
      Translation.orderClause { sorts }, limit.clause]
  match limit with
  | .derived _ => "SELECT " ++ quote column ++ " FROM (" ++ select ++ ") AS S" ++ tableAlias
  | _ => select

/-- The text of a joined table around its written parts. -/
def joinedText (kind : JoinKind) (target : String) (on : String) : String :=
  kind.sql ++ " " ++ target ++ if on = "" then "" else " ON " ++ on

mutual

/-- How a test is written. -/
def Test.sql : Test → String
  | .missing tableAlias reference operator => reference.sql tableAlias ++ " " ++ operator.sql
  | .value tableAlias reference operator parameter =>
    reference.sql tableAlias ++ " " ++ operator.sql ++ " " ++ Identifier.placeholder parameter
  | .text tableAlias reference operator raw =>
    reference.sql tableAlias ++ " " ++ operator.sql ++ " (" ++ raw ++ ")"
  | .rows tableAlias reference operator limit sorts column
      ⟨columns, table, innerAlias, joins, condition, arms⟩ =>
    reference.sql tableAlias ++ " " ++ operator.sql ++ " ("
      ++ comparedText limit sorts column innerAlias
        (selectRows columns table innerAlias (joinTexts joins) (conditionText condition)
          (armTexts arms)) ++ ")"
  | .pair left operator right => left.sql ++ " " ++ operator.sql ++ " " ++ right.sql
  | .member column table =>
    under column.tableAlias column.column ++ " IN (SELECT "
      ++ under table.shortName column.column ++ " FROM "
      ++ quote table.name ++ " AS " ++ table.shortName ++ ")"

/-- How a condition is written. -/
def conditionText : List (Lexeme Test) → String
  | [] => ""
  | lexeme :: rest => lexemeText lexeme ++ conditionText rest

/-- How a part of a condition is written. -/
def lexemeText : Lexeme Test → String
  | .atom test => test.sql
  | .connector c => " " ++ c.sql ++ " "
  | .opening => "("
  | .closing => ")"

/-- How a select is written. -/
def Select.sql : Select → String
  | ⟨columns, table, tableAlias, joins, condition, arms⟩ =>
    selectText columns table tableAlias (joinTexts joins) (conditionText condition) (armTexts arms)

/-- How joined tables are written. -/
def joinTexts : List JoinClause → List String
  | [] => []
  | join :: rest => join.sql :: joinTexts rest

/-- How a joined table is written. -/
def JoinClause.sql : JoinClause → String
  | ⟨kind, source, tableAlias, on⟩ =>
    joinedText kind (source.sql ++ " AS " ++ tableAlias) (conditionText on)

/-- How the rows of a joined table are written. -/
def JoinSource.sql : JoinSource → String
  | .table name => quote name
  | .derived select => "(" ++ select.sql ++ ")"

/-- How set operations are written. -/
def armTexts : List Arm → List String
  | [] => []
  | arm :: rest => arm.sql :: armTexts rest

/-- How a set operation is written. -/
def Arm.sql : Arm → String
  | .select operator select => operator.sql ++ " " ++ select.sql
  | .text operator raw => operator.sql ++ " " ++ raw

end

/-- A closure with its table and its columns. -/
structure ResolvedClosure where
  /-- The closure table. -/
  table : ClosureTable
  /-- Which way the relation is followed. -/
  direction : Direction
  /-- Column that identifies a row. -/
  data : String
  /-- Column that refers to another row. -/
  relation : String

/-- The definition of a closure table. -/
structure ClosureRows extends ResolvedClosure where
  /-- The first rows. -/
  first : Select

namespace ClosureRows

/-- Comparison of a row with the rows found so far. -/
def step (c : ClosureRows) : String :=
  match c.direction with
  | .up => under c.first.tableAlias c.data ++ "=" ++ under c.table.shortName c.relation
  | .down => under c.first.tableAlias c.relation ++ "=" ++ under c.table.shortName c.data

/-- The select of the columns that are followed, from the table alone. -/
def projection (c : ClosureRows) : String :=
  "SELECT " ++ String.intercalate "," (c.first.columns.map (under c.first.tableAlias)) ++ " FROM "
    ++ quote c.first.table ++ " AS " ++ c.first.tableAlias

/-- How the definition is written. -/
def sql (c : ClosureRows) : String :=
  c.table.name ++ " AS ("
    ++ Text.joinParts
      [c.projection, String.intercalate " " (joinTexts c.first.joins),
        Translation.whereClause { condition := conditionText c.first.condition },
        String.intercalate " " (armTexts c.first.arms)]
    ++ " UNION ALL " ++ c.projection ++ " JOIN " ++ quote c.table.name ++ " AS "
    ++ c.table.shortName ++ " ON " ++ c.step ++ ")"

end ClosureRows

/-- The clauses of a translated query in parts. -/
structure Outline where
  /-- Statement text that stands in for all clauses. -/
  text : Option String := none
  /-- The condition. -/
  condition : List (Lexeme Test) := []
  /-- Whether the conditions of the query itself have an alternative outside all parentheses. -/
  hasOr : Bool := false
  /-- Sort entries. -/
  sorts : List String := []
  /-- The joined tables. -/
  joins : List JoinClause := []
  /-- Definitions of closure tables. -/
  definitions : List ClosureRows := []
  /-- Set operations. -/
  arms : List Arm := []
  /-- Conditions on joined rows that belong to the outer statement. -/
  joinExtras : List (List (Lexeme Test)) := []
  /-- Whether the joins are written. -/
  allowJoin : Bool := true
  /-- The closure table defined last. -/
  closure : Option ClosureTable := none

/-- The clauses as they are written. -/
def Outline.toTranslation (o : Outline) : Translation :=
  { text := o.text
    condition := conditionText o.condition
    sorts := o.sorts
    joins := joinTexts o.joins
    definitions := o.definitions.map ClosureRows.sql
    combines := armTexts o.arms
    joinExtras := o.joinExtras.map conditionText
    allowJoin := o.allowJoin
    closure := o.closure
    hasOr := o.hasOr }

end AbstractSql
