import AbstractSql.Binding
import AbstractSql.Form.Failure
import AbstractSql.Form.Value
import AbstractSql.ExecutionUnit

/-!
# Compiled statements in JSON

What compiling gives, written out for people and tools: statements and units with their parameters
and with their text bound by position. Points in time are written by their numbers, numbers that are
not finite as they are, and of a parameter only what is declared.
-/

namespace AbstractSql

/-- A result, or its failure. -/
def Json.outcome {α : Type} (encode : α → Json) : Except Failure α → Json
  | .ok a => encode a
  | .error failure => failure.toJson

/-- Texts in order. -/
def Json.texts (texts : List String) : Json := list .string texts

/-- A natural number. -/
def Json.count (n : Nat) : Json := nat n.toUInt64

/-- The seven numbers of a point in time. -/
def DateTime.toReport (t : DateTime) : Json :=
  .object [("datetime",
    .array (.int (Int64.ofInt t.year)
      :: [t.month, t.day, t.hour, t.minute, t.second, t.nanosecond].map .count))]

mutual

/-- A value written out. -/
def Value.toReport : Value → Json
  | .dateTime t => t.toReport
  | .float x => .number (.float x)
  | .list items => .array (Value.toReportItems items)
  | v => v.toJson

/-- Values written out in order. -/
def Value.toReportItems : List Value → List Json
  | [] => []
  | v :: rest => v.toReport :: Value.toReportItems rest

end

/-- A parameter written out. -/
def Parameter.toReport (p : Parameter) : Json :=
  let declared (name : String) (part : Option Json) : List (String × Json) :=
    part.toList.map fun json => (name, json)
  .object
    ([("name", .string p.name), ("value", p.value.toReport)]
      ++ (if p.direction = .input then [] else [("direction", .string p.direction.name)])
      ++ declared "size" (p.size.map fun n => .nat n.toUInt64)
      ++ declared "precision" (p.precision.map fun n => .nat n.toUInt64)
      ++ declared "scale" (p.scale.map fun n => .nat n.toUInt64)
      ++ declared "sql_type" (p.sqlType.map fun t => .string t.name))

/-- Parameters written out. -/
def ParameterSet.toReport (set : ParameterSet) : Json := .list Parameter.toReport set.items

/-- A bound statement written out. -/
def Bound.toReport (b : Bound) : Json :=
  .object [("sql", .string b.sql), ("values", .list Value.toReport b.values)]

/-- A read statement written out. -/
def Statement.toReport (s : Statement) : Json :=
  .object
    [("text", .string s.text),
      ("parameters", s.parameters.toReport),
      ("bound", .outcome Bound.toReport (bind s.text s.parameters))]

/-- Parts of a unit written out. -/
def ExecutionUnit.toReportMembers (u : ExecutionUnit) : List (String × Json) :=
  [("statements", .texts u.statements),
    ("text", .string u.text),
    ("parameters", u.parameters.toReport),
    ("command_type", .string (if u.unitType = .procedure then "Procedure" else "Text")),
    ("perform_alone", .bool u.performAlone),
    ("must_affect_rows", .bool u.mustAffectRows),
    ("has_pre_script", .bool u.hasPreScript),
    ("bound", .list (fun s => .outcome Bound.toReport (bind s u.parameters)) u.statements)]

/-- A unit written out. -/
def ExecutionUnit.toReport (u : ExecutionUnit) : Json := .object u.toReportMembers

/-- A closure table written out. -/
def ClosureTable.toReport (t : ClosureTable) : Json := .texts [t.name, t.shortName]

/-- Clauses of a query written out, apart and with their keywords. -/
def Translation.toReportMembers (t : Translation) : List (String × Json) :=
  [("text", .optional .string t.text),
    ("condition", .string t.condition),
    ("sorts", .texts t.sorts),
    ("joins", .texts t.joins),
    ("with", .texts t.definitions),
    ("combines", .texts t.combines),
    ("join_extra_condition", .texts t.joinExtras),
    ("allow_join", .bool t.allowJoin),
    ("recurve", .optional ClosureTable.toReport t.closure),
    ("parameters", t.parameters.toReport),
    ("where_clause", .string t.whereClause),
    ("order_clause", .string t.orderClause),
    ("join_clause", .string t.joinClause),
    ("combine_clause", .string t.combineClause),
    ("pre_script", .string t.definitionClause),
    ("is_text", .bool t.isText),
    ("has_combine", .bool t.hasCombine),
    ("has_pre_script", .bool t.hasDefinitions)]

end AbstractSql
