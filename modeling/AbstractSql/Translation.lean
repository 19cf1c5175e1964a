import AbstractSql.NameSupply
import AbstractSql.ParameterSet

/-!
# Translated queries

A `Translation` holds the clauses of one query apart, without their keywords, so that whoever
embeds the query can put them where they belong. The clause functions write the keywords.
-/

namespace AbstractSql

/-- A rendered condition with what it pulls up from nested queries. -/
structure ConditionFragment where
  /-- Condition text; empty when there is nothing to test. -/
  text : String := ""
  /-- Definitions of closure tables. -/
  definitions : List String := []
  /-- The closure table defined last. -/
  closure : Option ClosureTable := none
  deriving DecidableEq

/-- The clauses of a translated query. -/
structure Translation where
  /-- Statement text that stands in for all clauses. -/
  text : Option String := none
  /-- Condition without its keyword. -/
  condition : String := ""
  /-- Sort entries. -/
  sorts : List String := []
  /-- Join clauses. -/
  joins : List String := []
  /-- Definitions of closure tables. -/
  definitions : List String := []
  /-- Set operations, each with its operator in front. -/
  combines : List String := []
  /-- Conditions on joined rows that belong to the outer statement. -/
  joinExtras : List String := []
  /-- Whether the joins are written; a closure takes them into its first rows. -/
  allowJoin : Bool := true
  /-- The closure table defined last. -/
  closure : Option ClosureTable := none
  /-- Bound values, filled in for a whole statement. -/
  parameters : ParameterSet := {}
  /-- Whether the condition has an alternative outside all parentheses. -/
  hasOr : Bool := false
  deriving Inhabited

namespace Translation

/-- The translation of a statement text. -/
def ofText (text : String) : Translation := { text := some text }

/-- Whether a statement text stands in for the clauses. -/
def isText (t : Translation) : Bool := t.text.isSome

/-- Whether there are set operations. -/
def hasCombine (t : Translation) : Bool := !t.combines.isEmpty

/-- Whether closure tables have to be defined in front of the statement. -/
def hasDefinitions (t : Translation) : Bool := !t.definitions.isEmpty

/-- Require another condition. The condition so far is put in parentheses when it offers an
alternative. -/
def andCondition (t : Translation) (extra : String) : Translation :=
  if extra = "" then t
  else if t.condition = "" then { t with condition := extra, hasOr := false }
  else if t.hasOr then
    { t with condition := "(" ++ t.condition ++ ") AND " ++ extra, hasOr := false }
  else { t with condition := t.condition ++ " AND " ++ extra, hasOr := false }

/-- Move the conditions on joined rows into the condition. -/
def mergeJoinExtras (t : Translation) : Translation :=
  t.joinExtras.foldl andCondition { t with joinExtras := [] }

/-- Take over what a nested translation defines. -/
def absorb (t nested : Translation) : Translation :=
  { t with
    definitions := t.definitions ++ nested.definitions
    closure := nested.closure.or t.closure }

/-- The condition with its keyword, or nothing. -/
def whereClause (t : Translation) : String :=
  if t.condition = "" then "" else "WHERE " ++ t.condition

/-- The sort entries with their keyword, or nothing. -/
def orderClause (t : Translation) : String :=
  match t.sorts with
  | [] => ""
  | sorts => "ORDER BY " ++ String.intercalate "," sorts

/-- The join clauses, or nothing when a closure has taken them. -/
def joinClause (t : Translation) : String :=
  if t.allowJoin then String.intercalate " " t.joins else ""

/-- The set operations. -/
def combineClause (t : Translation) : String := String.intercalate " " t.combines

/-- The definitions of closure tables with their keyword, or nothing. -/
def definitionClause (t : Translation) : String :=
  match t.definitions with
  | [] => ""
  | definitions => "WITH RECURSIVE " ++ String.intercalate "," definitions

end Translation

end AbstractSql
