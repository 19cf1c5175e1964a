import AbstractSql.Command
import AbstractSql.Form.Query

/-!
# Commands in JSON

A command is an object with its kind and, as far as they matter, its other parts.
-/

namespace AbstractSql

/-- Names of the operations on a present value. -/
def Arithmetic.choices : List (String × Arithmetic) :=
  [("Add", .add), ("Subtract", .subtract), ("Multiply", .multiply), ("Divide", .divide)]

/-- Name of an operation on a present value. -/
def Arithmetic.name : Arithmetic → String
  | add => "Add"
  | subtract => "Subtract"
  | multiply => "Multiply"
  | divide => "Divide"

namespace CommandKind

/-- Names of the kinds without contents. -/
def choices : List (String × CommandKind) :=
  [("Insert", .insert), ("Update", .update), ("Delete", .delete)]

/-- Names of the parts of a statement text. -/
def textPartNames : List String := ["text", "procedure"]

/-- Statement text of the contents of its kind. -/
def textOfJson? (d : Dialect) (json : Json) : Option CommandKind := do
  let r ← JsonRecord.of? d textPartNames json
  return .text (← r.required "text" Json.toText?) (← r.defaulted "procedure" false Json.toBool?)

/-- Kind of a JSON value. -/
def ofJson? (d : Dialect) : Json → Option CommandKind
  | .object [("Text", .object members)] => textOfJson? d (.object members)
  | .object [("Text", .array items)] =>
    if d.listedContents then textOfJson? d (.array items) else none
  | json => json.toChoice? d choices

/-- Form of a kind in JSON. -/
def toJson : CommandKind → Json
  | .text body isProcedure =>
    .object [("Text", .object [("text", .string body), ("procedure", .bool isProcedure)])]
  | .insert => .string "Insert"
  | .update => .string "Update"
  | .delete => .string "Delete"

end CommandKind

namespace Command

/-- Names of the parts of a command. -/
def partNames : List String :=
  ["kind", "entity", "object_name", "fields", "query", "values", "calculations",
    "must_affect_rows"]

/-- Command of a JSON value. -/
def ofJson? (d : Dialect) (json : Json) : Option Command := do
  let r ← JsonRecord.of? .json partNames json
  let calculation := Json.toPair? .json Json.toText? (Json.toChoice? .json Arithmetic.choices)
  return {
    kind := ← r.required "kind" (CommandKind.ofJson? d)
    entity := ← r.defaulted "entity" "" Json.toText?
    objectName := ← r.optional "object_name" Json.toText?
    fields := ← r.defaulted "fields" [] (Json.toList? Json.toText?)
    query := ← r.optional "query" Query.ofJson?
    values := ← r.defaulted "values" {} ParameterSet.ofJson?
    calculations := ← r.defaulted "calculations" [] (Json.toList? calculation)
    mustAffectRows := ← r.defaulted "must_affect_rows" false Json.toBool? }

/-- Form of a calculation in JSON. -/
def calculationToJson (entry : String × Arithmetic) : Json :=
  .array [.string entry.1, .string entry.2.name]

/-- Form of a command in JSON, with every part written. -/
def toJson (c : Command) : Json :=
  .object
    [("kind", c.kind.toJson),
      ("entity", .string c.entity),
      ("object_name", .optional .string c.objectName),
      ("fields", .list .string c.fields),
      ("query", .optional Query.toJson c.query),
      ("values", c.values.toJson),
      ("calculations", .list calculationToJson c.calculations),
      ("must_affect_rows", .bool c.mustAffectRows)]

end Command

end AbstractSql
