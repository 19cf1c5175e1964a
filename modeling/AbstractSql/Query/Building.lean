import AbstractSql.Query

/-!
# Building queries

Each function adds one element to a query and leaves the rest alone, so that a query can be written
as a chain of calls.
-/

namespace AbstractSql

namespace Query

/-- The query for all rows of an entity. -/
def ofEntity (entity : String) : Query := { entity }

/-- The query that is the given statement text. -/
def ofText (text : String) (parameters : ParameterSet) : Query :=
  { entity := "", text := some { text, parameters } }

/-- Add a condition at the end. -/
def addClause (q : Query) (connector : Connector) (condition : Condition) : Query :=
  { q with conditions := q.conditions ++ [⟨connector, condition⟩] }

/-- Add a comparison with a value. -/
def compare (q : Query) (connector : Connector) (field : String) (operator : Comparison)
    (value : Value) : Query :=
  q.addClause connector (.criterion { field, operator, value := .value value })

/-- Add a comparison that has to hold as well. -/
def filter (q : Query) (field : String) (operator : Comparison) (value : Value) : Query :=
  q.compare .and field operator value

/-- Add a comparison that may hold instead. -/
def orFilter (q : Query) (field : String) (operator : Comparison) (value : Value) : Query :=
  q.compare .or field operator value

/-- Add a comparison of a converted field. -/
def filterConverted (q : Query) (field : String) (conversion : Conversion) (operator : Comparison)
    (value : Value) : Query :=
  q.addClause .and
    (.criterion { field, operator, value := .value value, conversion := some conversion })

/-- Add a comparison with the first selected property of another query. -/
def filterSubquery (q : Query) (field : String) (operator : Comparison) (subquery : Query) :
    Query :=
  q.addClause .and (.criterion { field, operator, value := .query subquery })

/-- Add an equality. -/
def equal (q : Query) (field : String) (value : Value) : Query := q.filter field .equal value

/-- Add an inequality. -/
def notEqual (q : Query) (field : String) (value : Value) : Query := q.filter field .notEqual value

/-- Add a strict lower bound. -/
def greaterThan (q : Query) (field : String) (value : Value) : Query :=
  q.filter field .greaterThan value

/-- Add a strict upper bound. -/
def lessThan (q : Query) (field : String) (value : Value) : Query := q.filter field .lessThan value

/-- Add a membership test. -/
def inList (q : Query) (field : String) (values : Value) : Query := q.filter field .isIn values

/-- Add a search for a text. -/
def like (q : Query) (field : String) (value : Value) : Query := q.filter field .like value

/-- Add a test for a missing value. -/
def isNull (q : Query) (field : String) : Query := q.filter field .isNull .null

/-- Add a test for a present value. -/
def notNull (q : Query) (field : String) : Query := q.filter field .notNull .null

/-- Add a group that has to hold as well. -/
def andGroup (q group : Query) : Query := q.addClause .and (.group group)

/-- Add a group that may hold instead. -/
def orGroup (q group : Query) : Query := q.addClause .or (.group group)

/-- Sort by a property, small values first. -/
def orderBy (q : Query) (field : String) : Query := { q with sorts := q.sorts ++ [{ field }] }

/-- Sort by a property, large values first. -/
def orderByDesc (q : Query) (field : String) : Query :=
  { q with sorts := q.sorts ++ [{ field, desc := true }] }

/-- Name the wanted properties. -/
def select (q : Query) (fields : List String) : Query := { q with fields }

/-- Limit the number of rows. -/
def limit (q : Query) (size : UInt64) : Query := { q with size }

/-- Ask for a page. -/
def onPage (q : Query) (page size : UInt64) : Query := { q with paging := some { page, size } }

/-- Ask for an isolation level. -/
def isolated (q : Query) (level : Isolation) : Query := { q with isolation := some level }

/-- Add a joined query as described. -/
def withJoin (q : Query) (entry : Join) : Query := { q with joins := q.joins ++ [entry] }

/-- Join another query, with everything about the match inferred. -/
def joined (q : Query) (kind : JoinKind) (query : Query) : Query := q.withJoin { kind, query }

/-- Combine with another query. -/
def combine (q : Query) (kind : SetOperator) (query : Query) : Query :=
  { q with combines := q.combines ++ [{ kind, query }] }

/-- Close the rows under a self relation. -/
def closedUnder (q : Query) (dataField relationField : String) (direction : Direction) : Query :=
  { q with recurve := some { dataField, relationField, direction } }

end Query

namespace Join

/-- Match a pair of properties. -/
def on (j : Join) (source target : String) : Join :=
  { j with fields := j.fields ++ [(source, target)] }

/-- Compare the matched columns by another operator. -/
def comparedBy (j : Join) (operator : JoinOperator) : Join := { j with operator }

/-- Put conditions on the joined rows into the outer statement. -/
def withExtra (j : Join) (query : Query) : Join := { j with extra := some query }

end Join

end AbstractSql
