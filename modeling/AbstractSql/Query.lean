import AbstractSql.ParameterSet

/-!
# The query model

A `Query` names an entity and says which rows and properties of it are wanted, in terms of
properties rather than columns. Conditions nest through groups and subqueries, and joins and set
operations hold queries again, so the types are declared together.
-/

namespace AbstractSql

/-- Connector in front of a condition; the one in front of the first rendered condition is not
written. -/
inductive Connector where
  /-- Both sides hold. -/
  | and
  /-- At least one side holds. -/
  | or
  deriving DecidableEq, Inhabited

/-- Keyword of a connector. -/
def Connector.sql : Connector → String
  | and => "AND"
  | or => "OR"

/-- How a criterion compares its field. -/
inductive Comparison where
  /-- Equality. -/
  | equal
  /-- Inequality. -/
  | notEqual
  /-- Strictly above. -/
  | greaterThan
  /-- Not below. -/
  | greaterThanOrEqual
  /-- Strictly below. -/
  | lessThan
  /-- Not above. -/
  | lessThanOrEqual
  /-- Member of a list. -/
  | isIn
  /-- No member of a list. -/
  | notIn
  /-- Contains a text. -/
  | like
  /-- Does not contain a text. -/
  | notLike
  /-- Begins with a text. -/
  | beginLike
  /-- Does not begin with a text. -/
  | notBeginLike
  /-- Ends with a text. -/
  | endLike
  /-- Does not end with a text. -/
  | notEndLike
  /-- Has no value. -/
  | isNull
  /-- Has a value. -/
  | notNull
  deriving DecidableEq

namespace Comparison

/-- Operator text of a comparison. -/
def sql : Comparison → String
  | equal => "="
  | notEqual => "<>"
  | greaterThan => ">"
  | greaterThanOrEqual => ">="
  | lessThan => "<"
  | lessThanOrEqual => "<="
  | isIn => "IN"
  | notIn => "NOT IN"
  | like | beginLike | endLike => "LIKE"
  | notLike | notBeginLike | notEndLike => "NOT LIKE"
  | isNull => "IS NULL"
  | notNull => "IS NOT NULL"

/-- The tests for a missing value bind nothing; all others bind their right-hand side. -/
def needsParameter : Comparison → Bool
  | isNull | notNull => false
  | _ => true

/-- Whether the right-hand side is a list. -/
def isMembership : Comparison → Bool
  | isIn | notIn => true
  | _ => false

/-- The value that is bound: pattern marks around the text for the LIKE family, a list for
membership, the value as it stands otherwise. -/
def shapeValue : Comparison → Value → Value
  | like, v | notLike, v => .string ("%" ++ v.asText ++ "%")
  | beginLike, v | notBeginLike, v => .string (v.asText ++ "%")
  | endLike, v | notEndLike, v => .string ("%" ++ v.asText)
  | isIn, v | notIn, v => v.intoList
  | _, v => v

end Comparison

/-- A conversion of a field, by name. -/
structure Conversion where
  /-- Name that the renderer resolves. -/
  name : String
  deriving DecidableEq

/-- The conversion to the number of characters. -/
def Conversion.stringLength : Conversion := ⟨"StringLength"⟩

/-- How the rows of two sources are matched. -/
inductive JoinKind where
  /-- Matching pairs only. -/
  | inner
  /-- All rows of the left side. -/
  | left
  /-- All rows of the right side. -/
  | right
  /-- All rows of both sides. -/
  | full
  /-- All pairs. -/
  | cross
  deriving DecidableEq

/-- Keywords of a join. -/
def JoinKind.sql : JoinKind → String
  | inner => "INNER JOIN"
  | left => "LEFT JOIN"
  | right => "RIGHT JOIN"
  | full => "FULL JOIN"
  | cross => "CROSS JOIN"

/-- How the matched columns of a join are compared. -/
inductive JoinOperator where
  /-- Equality. -/
  | equal
  /-- Inequality. -/
  | notEqual
  /-- Strictly above. -/
  | greaterThan
  /-- Not below. -/
  | greaterThanOrEqual
  /-- Strictly below. -/
  | lessThan
  /-- Not above. -/
  | lessThanOrEqual
  deriving DecidableEq, Inhabited

/-- Operator text of a column comparison. -/
def JoinOperator.sql : JoinOperator → String
  | equal => "="
  | notEqual => "<>"
  | greaterThan => ">"
  | greaterThanOrEqual => ">="
  | lessThan => "<"
  | lessThanOrEqual => "<="

/-- How the rows of two queries are combined. -/
inductive SetOperator where
  /-- Rows of either, each once. -/
  | union
  /-- Rows of either, repeats kept. -/
  | unionAll
  /-- Rows of both. -/
  | intersect
  /-- Rows of the first that the second lacks. -/
  | except
  deriving DecidableEq

/-- Keywords of a set operator. -/
def SetOperator.sql : SetOperator → String
  | union => "UNION"
  | unionAll => "UNION ALL"
  | intersect => "INTERSECT"
  | except => "EXCEPT"

/-- Whether the server has the operator itself; the others are turned into joins. -/
def SetOperator.isNative : SetOperator → Bool
  | union | unionAll => true
  | intersect | except => false

/-- Which way a hierarchy is walked. -/
inductive Direction where
  /-- Towards the parents. -/
  | up
  /-- Towards the children. -/
  | down
  deriving DecidableEq

/-- The closure of the selected rows under a self relation. -/
structure Closure where
  /-- Property that identifies a row. -/
  dataField : String
  /-- Property that refers to another row. -/
  relationField : String
  /-- Which way the relation is followed. -/
  direction : Direction
  deriving DecidableEq

/-- Largest size a count of rows, statements or parameters can have. -/
def sizeLimit : Nat := UInt64.size - 1

/-- A page of the result, with pages counted from 1. -/
structure Paging where
  /-- Number of the page. -/
  page : UInt64
  /-- Rows on a page. -/
  size : UInt64
  deriving DecidableEq

/-- Rows in front of the page, never above the largest size. -/
def Paging.offset (p : Paging) : Nat := min ((p.page.toNat - 1) * p.size.toNat) sizeLimit

/-- How far a transaction is shielded from others. -/
inductive Isolation where
  /-- Sees what others have not committed. -/
  | readUncommitted
  /-- Sees what others have committed. -/
  | readCommitted
  /-- Sees the same rows at every read. -/
  | repeatableRead
  /-- Runs as if alone. -/
  | serializable
  deriving DecidableEq

/-- Keywords of an isolation level. -/
def Isolation.sql : Isolation → String
  | readUncommitted => "READ UNCOMMITTED"
  | readCommitted => "READ COMMITTED"
  | repeatableRead => "REPEATABLE READ"
  | serializable => "SERIALIZABLE"

/-- A function over all rows of a query. -/
inductive Aggregate where
  /-- Number of rows. -/
  | count
  /-- Largest value. -/
  | max
  /-- Smallest value. -/
  | min
  /-- Sum of the values. -/
  | sum
  /-- Mean of the values. -/
  | avg
  deriving DecidableEq

/-- Function name of an aggregate. -/
def Aggregate.sql : Aggregate → String
  | count => "COUNT"
  | max => "MAX"
  | min => "MIN"
  | sum => "SUM"
  | avg => "AVG"

/-- A property that rows are sorted by. -/
structure SortKey where
  /-- The property. -/
  field : String
  /-- Whether large values come first. -/
  desc : Bool := false
  /-- Conversion applied before comparing. -/
  conversion : Option Conversion := none
  deriving DecidableEq

/-- Statement text taken as it is, with the parameters it refers to. -/
structure RawText where
  /-- The text. -/
  text : String
  /-- What its placeholders stand for. -/
  parameters : ParameterSet := {}
  deriving Inhabited

mutual

/-- A description of rows of one entity, or a raw statement text. -/
structure Query where
  /-- The entity whose rows are wanted. -/
  entity : String
  /-- Text that stands in for everything else. -/
  text : Option RawText := none
  /-- Conditions on the rows. -/
  conditions : List Clause := []
  /-- Properties that the rows are sorted by. -/
  sorts : List SortKey := []
  /-- Joined queries. -/
  joins : List Join := []
  /-- Set operations with other queries. -/
  combines : List Combine := []
  /-- Closure of the selected rows under a self relation. -/
  recurve : Option Closure := none
  /-- Wanted page. -/
  paging : Option Paging := none
  /-- Largest number of rows; zero for all. -/
  size : UInt64 := 0
  /-- Wanted properties; all queryable ones when empty. -/
  fields : List String := []
  /-- Isolation level that the read asks for. -/
  isolation : Option Isolation := none

/-- A condition with the connector in front of it. -/
structure Clause where
  /-- The connector. -/
  connector : Connector
  /-- The condition. -/
  condition : Condition

/-- A node of the predicate tree. -/
inductive Condition where
  /-- A comparison. -/
  | criterion (criterion : Criterion)
  /-- The conditions of a query, taken together; nothing else of that query counts. -/
  | group (group : Query)

/-- A comparison of a field with a value or with the rows of another query. -/
structure Criterion where
  /-- Property on the left. -/
  field : String
  /-- The comparison. -/
  operator : Comparison
  /-- Right-hand side. -/
  value : Operand
  /-- Conversion of the left-hand side. -/
  conversion : Option Conversion := none

/-- Right-hand side of a comparison. -/
inductive Operand where
  /-- A bound value. -/
  | value (value : Value)
  /-- The first selected property of another query. -/
  | query (query : Query)

/-- A joined query. -/
structure Join where
  /-- How rows are matched. -/
  kind : JoinKind
  /-- How matched columns are compared. -/
  operator : JoinOperator := .equal
  /-- Pairs of source and target properties; inferred when empty. -/
  fields : List (String × String) := []
  /-- The joined query. -/
  query : Query
  /-- Conditions on the joined rows that belong to the outer statement. -/
  extra : Option Query := none

/-- A set operation with another query. -/
structure Combine where
  /-- The operator. -/
  kind : SetOperator
  /-- The other query. -/
  query : Query

end

instance : Inhabited Query := ⟨{ entity := "" }⟩

/-- Whether the query is a raw statement text. -/
def Query.isText (q : Query) : Bool := q.text.isSome

end AbstractSql
