import AbstractSql.Form.Value
import AbstractSql.Query

/-!
# Queries in JSON

A query is an object in which everything but the entity may be left out. Only queries hold queries
again, so a query is read with a reader for the queries inside it; how deep that goes is bounded by
the height of the JSON value.
-/

namespace AbstractSql

/-- Names of the connectors. -/
def Connector.choices : List (String × Connector) := [("And", .and), ("Or", .or)]

/-- Name of a connector. -/
def Connector.name : Connector → String
  | and => "And"
  | or => "Or"

/-- Names of the comparisons. -/
def Comparison.choices : List (String × Comparison) :=
  [("Equal", .equal), ("NotEqual", .notEqual), ("GreaterThan", .greaterThan),
    ("GreaterThanOrEqual", .greaterThanOrEqual), ("LessThan", .lessThan),
    ("LessThanOrEqual", .lessThanOrEqual), ("In", .isIn), ("NotIn", .notIn), ("Like", .like),
    ("NotLike", .notLike), ("BeginLike", .beginLike), ("NotBeginLike", .notBeginLike),
    ("EndLike", .endLike), ("NotEndLike", .notEndLike), ("IsNull", .isNull),
    ("NotNull", .notNull)]

/-- Name of a comparison. -/
def Comparison.name : Comparison → String
  | equal => "Equal"
  | notEqual => "NotEqual"
  | greaterThan => "GreaterThan"
  | greaterThanOrEqual => "GreaterThanOrEqual"
  | lessThan => "LessThan"
  | lessThanOrEqual => "LessThanOrEqual"
  | isIn => "In"
  | notIn => "NotIn"
  | like => "Like"
  | notLike => "NotLike"
  | beginLike => "BeginLike"
  | notBeginLike => "NotBeginLike"
  | endLike => "EndLike"
  | notEndLike => "NotEndLike"
  | isNull => "IsNull"
  | notNull => "NotNull"

/-- Names of the kinds of join. -/
def JoinKind.choices : List (String × JoinKind) :=
  [("Inner", .inner), ("Left", .left), ("Right", .right), ("Full", .full), ("Cross", .cross)]

/-- Name of a kind of join. -/
def JoinKind.name : JoinKind → String
  | inner => "Inner"
  | left => "Left"
  | right => "Right"
  | full => "Full"
  | cross => "Cross"

/-- Names of the operators of a join. -/
def JoinOperator.choices : List (String × JoinOperator) :=
  [("Equal", .equal), ("NotEqual", .notEqual), ("GreaterThan", .greaterThan),
    ("GreaterThanOrEqual", .greaterThanOrEqual), ("LessThan", .lessThan),
    ("LessThanOrEqual", .lessThanOrEqual)]

/-- Name of an operator of a join. -/
def JoinOperator.name : JoinOperator → String
  | equal => "Equal"
  | notEqual => "NotEqual"
  | greaterThan => "GreaterThan"
  | greaterThanOrEqual => "GreaterThanOrEqual"
  | lessThan => "LessThan"
  | lessThanOrEqual => "LessThanOrEqual"

/-- Names of the set operators. -/
def SetOperator.choices : List (String × SetOperator) :=
  [("Union", .union), ("UnionAll", .unionAll), ("Intersect", .intersect), ("Except", .except)]

/-- Name of a set operator. -/
def SetOperator.name : SetOperator → String
  | union => "Union"
  | unionAll => "UnionAll"
  | intersect => "Intersect"
  | except => "Except"

/-- Names of the directions of a closure. -/
def Direction.choices : List (String × Direction) := [("Up", .up), ("Down", .down)]

/-- Name of a direction. -/
def Direction.name : Direction → String
  | up => "Up"
  | down => "Down"

/-- Names of the isolation levels. -/
def Isolation.choices : List (String × Isolation) :=
  [("ReadUncommitted", .readUncommitted), ("ReadCommitted", .readCommitted),
    ("RepeatableRead", .repeatableRead), ("Serializable", .serializable)]

/-- Name of an isolation level. -/
def Isolation.name : Isolation → String
  | readUncommitted => "ReadUncommitted"
  | readCommitted => "ReadCommitted"
  | repeatableRead => "RepeatableRead"
  | serializable => "Serializable"

/-- Conversion of a JSON value. -/
def Conversion.ofJson? (json : Json) : Option Conversion := do
  let r ← JsonRecord.of? .json ["name"] json
  return ⟨← r.required "name" Json.toText?⟩

/-- Form of a conversion in JSON. -/
def Conversion.toJson (c : Conversion) : Json := .object [("name", .string c.name)]

/-- Sort key of a JSON value. -/
def SortKey.ofJson? (json : Json) : Option SortKey := do
  let r ← JsonRecord.of? .json ["field", "desc", "conversion"] json
  return {
    field := ← r.required "field" Json.toText?
    desc := ← r.defaulted "desc" false Json.toBool?
    conversion := ← r.optional "conversion" Conversion.ofJson? }

/-- Form of a sort key in JSON. -/
def SortKey.toJson (key : SortKey) : Json :=
  .object
    [("field", .string key.field),
      ("desc", .bool key.desc),
      ("conversion", .optional Conversion.toJson key.conversion)]

/-- Closure of a JSON value. -/
def Closure.ofJson? (json : Json) : Option Closure := do
  let r ← JsonRecord.of? .json ["data_field", "relation_field", "direction"] json
  return {
    dataField := ← r.required "data_field" Json.toText?
    relationField := ← r.required "relation_field" Json.toText?
    direction := ← r.required "direction" (Json.toChoice? .json Direction.choices) }

/-- Form of a closure in JSON. -/
def Closure.toJson (c : Closure) : Json :=
  .object
    [("data_field", .string c.dataField),
      ("relation_field", .string c.relationField),
      ("direction", .string c.direction.name)]

/-- Page of a JSON value. -/
def Paging.ofJson? (json : Json) : Option Paging := do
  let r ← JsonRecord.of? .json ["page", "size"] json
  return { page := ← r.required "page" Json.toWord?, size := ← r.required "size" Json.toWord? }

/-- Form of a page in JSON. -/
def Paging.toJson (p : Paging) : Json := .object [("page", .nat p.page), ("size", .nat p.size)]

/-- Statement text of a JSON value. -/
def RawText.ofJson? (json : Json) : Option RawText := do
  let r ← JsonRecord.of? .json ["text", "parameters"] json
  return {
    text := ← r.required "text" Json.toText?
    parameters := ← r.defaulted "parameters" {} ParameterSet.ofJson? }

/-- Form of a statement text in JSON. -/
def RawText.toJson (raw : RawText) : Json :=
  .object [("text", .string raw.text), ("parameters", raw.parameters.toJson)]

/-- Right-hand side of a JSON value, given a reader of queries. -/
def Operand.ofJson? (query : Json → Option Query) : Json → Option Operand
  | .object [("Value", json)] => (Value.ofJson? json).map .value
  | .object [("Query", json)] => (query json).map .query
  | _ => none

/-- Comparison of a JSON value, given a reader of queries. -/
def Criterion.ofJson? (query : Json → Option Query) (json : Json) : Option Criterion := do
  let r ← JsonRecord.of? .json ["field", "operator", "value", "conversion"] json
  return {
    field := ← r.required "field" Json.toText?
    operator := ← r.required "operator" (Json.toChoice? .json Comparison.choices)
    value := ← r.required "value" (Operand.ofJson? query)
    conversion := ← r.optional "conversion" Conversion.ofJson? }

/-- Condition of a JSON value, given a reader of queries. -/
def Condition.ofJson? (query : Json → Option Query) : Json → Option Condition
  | .object [("Criterion", json)] => (Criterion.ofJson? query json).map .criterion
  | .object [("Group", json)] => (query json).map .group
  | _ => none

/-- Condition of a JSON value with its connector, given a reader of queries. -/
def Clause.ofJson? (query : Json → Option Query) (json : Json) : Option Clause :=
  (json.toPair? .json (Json.toChoice? .json Connector.choices) (Condition.ofJson? query)).map
    fun pair => ⟨pair.1, pair.2⟩

/-- Join of a JSON value, given a reader of queries. -/
def Join.ofJson? (query : Json → Option Query) (json : Json) : Option Join := do
  let r ← JsonRecord.of? .json ["kind", "operator", "fields", "query", "extra"] json
  return {
    kind := ← r.required "kind" (Json.toChoice? .json JoinKind.choices)
    operator := ← r.defaulted "operator" .equal (Json.toChoice? .json JoinOperator.choices)
    fields := ← r.defaulted "fields" [] (Json.toList? (Json.toTextPair? .json))
    query := ← r.required "query" query
    extra := ← r.optional "extra" query }

/-- Set operation of a JSON value, given a reader of queries. -/
def Combine.ofJson? (query : Json → Option Query) (json : Json) : Option Combine := do
  let r ← JsonRecord.of? .json ["kind", "query"] json
  return {
    kind := ← r.required "kind" (Json.toChoice? .json SetOperator.choices)
    query := ← r.required "query" query }

namespace Query

/-- Names of the parts of a query. -/
def partNames : List String :=
  ["entity", "text", "conditions", "sorts", "joins", "combines", "recurve", "paging", "size",
    "fields", "isolation"]

/-- Query of a JSON value in which queries stand at most so deep inside one another. -/
def ofJsonWithin? : Nat → Json → Option Query
  | 0, _ => none
  | depth + 1, json => do
    let query := ofJsonWithin? depth
    let r ← JsonRecord.of? .json partNames json
    return {
      entity := ← r.required "entity" Json.toText?
      text := ← r.optional "text" RawText.ofJson?
      conditions := ← r.defaulted "conditions" [] (Json.toList? (Clause.ofJson? query))
      sorts := ← r.defaulted "sorts" [] (Json.toList? SortKey.ofJson?)
      joins := ← r.defaulted "joins" [] (Json.toList? (Join.ofJson? query))
      combines := ← r.defaulted "combines" [] (Json.toList? (Combine.ofJson? query))
      recurve := ← r.optional "recurve" Closure.ofJson?
      paging := ← r.optional "paging" Paging.ofJson?
      size := ← r.defaulted "size" 0 Json.toWord?
      fields := ← r.defaulted "fields" [] (Json.toList? Json.toText?)
      isolation := ← r.optional "isolation" (Json.toChoice? .json Isolation.choices) }

/-- Query of a JSON value. -/
def ofJson? (json : Json) : Option Query := ofJsonWithin? json.height json

end Query

mutual

/-- Form of a query in JSON, with every part written. -/
def Query.toJson : Query → Json
  | { entity, text, conditions, sorts, joins, combines, recurve, paging, size, fields,
      isolation } =>
    .object
      [("entity", .string entity),
        ("text", .optional RawText.toJson text),
        ("conditions", .array (Clause.toJsonItems conditions)),
        ("sorts", .list SortKey.toJson sorts),
        ("joins", .array (Join.toJsonItems joins)),
        ("combines", .array (Combine.toJsonItems combines)),
        ("recurve", .optional Closure.toJson recurve),
        ("paging", .optional Paging.toJson paging),
        ("size", .nat size),
        ("fields", .list .string fields),
        ("isolation", .optional (fun level => .string level.name) isolation)]

/-- Forms of conditions with their connectors. -/
def Clause.toJsonItems : List Clause → List Json
  | [] => []
  | ⟨connector, condition⟩ :: rest =>
    .array [.string connector.name, condition.toJson] :: Clause.toJsonItems rest

/-- Form of a condition in JSON. -/
def Condition.toJson : Condition → Json
  | .criterion { field, operator, value, conversion } =>
    .object
      [("Criterion",
        .object
          [("field", .string field),
            ("operator", .string operator.name),
            ("value", value.toJson),
            ("conversion", .optional Conversion.toJson conversion)])]
  | .group group => .object [("Group", group.toJson)]

/-- Form of a right-hand side in JSON. -/
def Operand.toJson : Operand → Json
  | .value value => .object [("Value", value.toJson)]
  | .query query => .object [("Query", query.toJson)]

/-- Forms of joins. -/
def Join.toJsonItems : List Join → List Json
  | [] => []
  | { kind, operator, fields, query, extra } :: rest =>
    .object
      [("kind", .string kind.name),
        ("operator", .string operator.name),
        ("fields", .list Json.textPair fields),
        ("query", query.toJson),
        ("extra",
          match extra with
          | none => .null
          | some extra => extra.toJson)] :: Join.toJsonItems rest

/-- Forms of set operations. -/
def Combine.toJsonItems : List Combine → List Json
  | [] => []
  | ⟨kind, query⟩ :: rest =>
    .object [("kind", .string kind.name), ("query", query.toJson)] :: Combine.toJsonItems rest

end

end AbstractSql
