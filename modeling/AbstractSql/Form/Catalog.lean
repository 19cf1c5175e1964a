import AbstractSql.Catalog
import AbstractSql.Json.Record

/-!
# Catalogs in JSON and TOML

A catalog is written in the same form in both formats: tables of entities, with their fields and
relations in lists.
-/

namespace AbstractSql

/-- Field of a value. -/
def Field.ofJson? (d : Dialect) (json : Json) : Option Field := do
  let r ← JsonRecord.of? d
    ["property", "column", "primary_key", "editable", "queryable", "query_format"] json
  return {
    property := ← r.required "property" Json.toText?
    mapped := ← r.optional "column" Json.toText?
    primaryKey := ← r.defaulted "primary_key" false Json.toBool?
    editable := ← r.defaulted "editable" true Json.toBool?
    queryable := ← r.defaulted "queryable" true Json.toBool?
    queryFormat := ← r.optional "query_format" Json.toText? }

/-- Form of a field in JSON. -/
def Field.toJson (f : Field) : Json :=
  .object
    [("property", .string f.property),
      ("column", .optional .string f.mapped),
      ("primary_key", .bool f.primaryKey),
      ("editable", .bool f.editable),
      ("queryable", .bool f.queryable),
      ("query_format", .optional .string f.queryFormat)]

/-- Relation of a value. -/
def Relation.ofJson? (d : Dialect) (json : Json) : Option Relation := do
  let r ← JsonRecord.of? d ["target", "fields"] json
  return {
    target := ← r.required "target" Json.toText?
    fields := ← r.required "fields" (Json.toList? (Json.toTextPair? d)) }

/-- Form of a relation in JSON. -/
def Relation.toJson (r : Relation) : Json :=
  .object [("target", .string r.target), ("fields", .list Json.textPair r.fields)]

/-- Entity of a value. -/
def Entity.ofJson? (d : Dialect) (json : Json) : Option Entity := do
  let r ← JsonRecord.of? d ["table", "fields", "relations"] json
  return {
    table := ← r.optional "table" Json.toText?
    fields := ← r.defaulted "fields" [] (Json.toList? (Field.ofJson? d))
    relations := ← r.defaulted "relations" [] (Json.toList? (Relation.ofJson? d)) }

/-- Form of an entity in JSON. -/
def Entity.toJson (e : Entity) : Json :=
  .object
    [("table", .optional .string e.table),
      ("fields", .list Field.toJson e.fields),
      ("relations", .list Relation.toJson e.relations)]

namespace Catalog

/-- Catalog with the entities of some members added. -/
def ofMembers? (d : Dialect) : List (String × Json) → Catalog → Option Catalog
  | [], c => some c
  | (name, json) :: rest, c => do ofMembers? d rest (c.insert name (← Entity.ofJson? d json))

/-- Entities of a value. -/
def ofEntities? (d : Dialect) : Json → Option Catalog
  | .object members => ofMembers? d members {}
  | _ => none

/-- Catalog of a value. -/
def ofJson? (d : Dialect) (json : Json) : Option Catalog := do
  let r ← JsonRecord.of? d ["entities"] json
  r.defaulted "entities" {} (ofEntities? d)

/-- Form of a catalog in JSON. -/
def toJson (c : Catalog) : Json :=
  .object [("entities", .object (c.entities.map fun entry => (entry.1, entry.2.toJson)))]

end Catalog

end AbstractSql
