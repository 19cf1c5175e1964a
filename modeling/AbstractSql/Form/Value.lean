import AbstractSql.Json.Record
import AbstractSql.ParameterSet

/-!
# Values and parameters in JSON

A value is written as the JSON value it looks like. A point in time has no form of its own and is
written as text, so reading never gives one back; a number that is not finite is written as null. A
set of parameters is written as a list and read
as it stands, repeated names included.
-/

namespace AbstractSql

mutual

/-- Value of a JSON value. Objects are no values. -/
def Value.ofJson? : Json → Option Value
  | .null => some .null
  | .bool b => some (.bool b)
  | .number n =>
    match n.toInt? with
    | some n => some (.int n)
    | none => some (.float n.toFloat)
  | .string s => some (.string s)
  | .array items => (Value.ofJsonItems? items).map .list
  | _ => none

/-- Values of JSON values in order. -/
def Value.ofJsonItems? : List Json → Option (List Value)
  | [] => some []
  | item :: rest => do return (← Value.ofJson? item) :: (← Value.ofJsonItems? rest)

end

mutual

/-- Form of a value in JSON. -/
def Value.toJson : Value → Json
  | .null => .null
  | .bool b => .bool b
  | .int n => .int n
  | .float x => if x.isFinite then .number (.float x) else .null
  | .string s => .string s
  | .dateTime t => .string t.iso
  | .list items => .array (Value.toJsonItems items)

/-- Forms of values in order. -/
def Value.toJsonItems : List Value → List Json
  | [] => []
  | v :: rest => v.toJson :: Value.toJsonItems rest

end

/-- Names of the directions of a parameter. -/
def ParameterDirection.choices : List (String × ParameterDirection) :=
  [("Input", .input), ("Output", .output), ("InputOutput", .inputOutput),
    ("ReturnValue", .returnValue)]

/-- Name of a direction. -/
def ParameterDirection.name : ParameterDirection → String
  | input => "Input"
  | output => "Output"
  | inputOutput => "InputOutput"
  | returnValue => "ReturnValue"

/-- Names of the declared types. -/
def SqlType.choices : List (String × SqlType) :=
  [("Bool", .bool), ("Int", .int), ("BigInt", .bigInt), ("Decimal", .decimal),
    ("Double", .double), ("String", .string), ("DateTime", .dateTime), ("Binary", .binary)]

/-- Name of a declared type. -/
def SqlType.name : SqlType → String
  | bool => "Bool"
  | int => "Int"
  | bigInt => "BigInt"
  | decimal => "Decimal"
  | double => "Double"
  | string => "String"
  | dateTime => "DateTime"
  | binary => "Binary"

namespace Parameter

/-- Names of the parts of a parameter. -/
def partNames : List String :=
  ["name", "value", "direction", "size", "precision", "scale", "sql_type"]

/-- Parameter of a JSON value. -/
def ofJson? (json : Json) : Option Parameter := do
  let r ← JsonRecord.of? .json partNames json
  return {
    name := ← r.required "name" Json.toText?
    value := ← r.required "value" Value.ofJson?
    direction := ← r.defaulted "direction" .input (Json.toChoice? .json ParameterDirection.choices)
    size := ← r.optional "size" fun j => (j.toNat? UInt32.size).map Nat.toUInt32
    precision := ← r.optional "precision" fun j => (j.toNat? UInt8.size).map Nat.toUInt8
    scale := ← r.optional "scale" fun j => (j.toNat? UInt8.size).map Nat.toUInt8
    sqlType := ← r.optional "sql_type" (Json.toChoice? .json SqlType.choices) }

/-- Form of a parameter in JSON. -/
def toJson (p : Parameter) : Json :=
  .object
    [("name", .string p.name),
      ("value", p.value.toJson),
      ("direction", .string p.direction.name),
      ("size", .optional (fun n => .nat n.toUInt64) p.size),
      ("precision", .optional (fun n => .nat n.toUInt64) p.precision),
      ("scale", .optional (fun n => .nat n.toUInt64) p.scale),
      ("sql_type", .optional (fun t => .string t.name) p.sqlType)]

end Parameter

namespace ParameterSet

/-- Set of a JSON value, with its entries as they stand. -/
def ofJson? (json : Json) : Option ParameterSet :=
  (json.toList? Parameter.ofJson?).map fun items => ⟨items⟩

/-- Form of a set in JSON. -/
def toJson (set : ParameterSet) : Json := .list Parameter.toJson set.items

end ParameterSet

end AbstractSql
