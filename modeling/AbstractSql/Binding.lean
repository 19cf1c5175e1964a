import AbstractSql.Segment

/-!
# Binding by position

The server binds by position. Every placeholder becomes a question mark, or one mark for each
member of a list, and the values are collected in the order of the marks. An empty list becomes
`(NULL)`, which keeps a membership test well formed and matches nothing.
-/

namespace AbstractSql

/-- A statement with question marks and the values that stand for them. -/
structure Bound where
  /-- Statement text. -/
  sql : String := ""
  /-- Values in the order of the marks. -/
  values : List Value := []
  deriving Inhabited

namespace Bound

/-- The marks that stand for a value. -/
def marks : Value → String
  | .list [] => "(NULL)"
  | .list items => "(" ++ String.intercalate ", " (items.map fun _ => "?") ++ ")"
  | _ => "?"

/-- The values behind the marks. -/
def scalars : Value → List Value
  | .list items => items
  | value => [value]

/-- One piece of text followed by the rest. -/
def prepend (text : String) (values : List Value) (rest : Bound) : Bound :=
  ⟨text ++ rest.sql, values ++ rest.values⟩

/-- Bind the segments of a statement. -/
def ofSegments (parameters : ParameterSet) : List Segment → Except Failure Bound
  | [] => .ok {}
  | .sql text :: rest => (ofSegments parameters rest).map (prepend text [])
  | .placeholder name :: rest =>
    match parameters.value? name with
    | none => .error (.unknownParameter name)
    | some value => (ofSegments parameters rest).map (prepend (marks value) (scalars value))

end Bound

/-- Bind a statement by position. -/
def bind (text : String) (parameters : ParameterSet) : Except Failure Bound :=
  match Segment.scan text with
  | .error failure => .error failure
  | .ok segments => Bound.ofSegments parameters segments

end AbstractSql
