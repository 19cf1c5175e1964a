/-!
# The entity catalog

A catalog maps entities to tables and properties to columns. What it does not know keeps its own
name, so every look-up of a table or a column has an answer.
-/

namespace AbstractSql

/-- A mapped property of an entity. -/
structure Field where
  /-- Name of the property. -/
  property : String
  /-- Column, where it has another name than the property. -/
  mapped : Option String := none
  /-- Whether it belongs to the primary key. -/
  primaryKey : Bool := false
  /-- Whether an insert writes it. -/
  editable : Bool := true
  /-- Whether a read returns it when nothing is selected. -/
  queryable : Bool := true
  /-- Template of the select-list entry. -/
  queryFormat : Option String := none
  deriving DecidableEq

/-- Column of a property. -/
def Field.column (f : Field) : String := f.mapped.getD f.property

/-- A declared relation to another entity. -/
structure Relation where
  /-- The other entity. -/
  target : String
  /-- Pairs of source and target properties. -/
  fields : List (String × String)
  deriving DecidableEq

/-- What the catalog says about one entity. -/
structure Entity where
  /-- Table, where it has another name than the entity. -/
  table : Option String := none
  /-- Properties in the order of their declaration. -/
  fields : List Field := []
  /-- Relations to other entities. -/
  relations : List Relation := []
  deriving DecidableEq

namespace Entity

/-- An entity kept in the given table. -/
def ofTable (table : String) : Entity := { table := some table }

/-- Declare a property as described. -/
def withField (e : Entity) (field : Field) : Entity := { e with fields := e.fields ++ [field] }

/-- Declare a property of the primary key. -/
def withKey (e : Entity) (property : String) : Entity :=
  e.withField { property, primaryKey := true }

/-- Declare a property that is a column of the same name. -/
def withProperty (e : Entity) (property : String) : Entity := e.withField { property }

/-- Declare a property with its column. -/
def withColumn (e : Entity) (property column : String) : Entity :=
  e.withField { property, mapped := some column }

/-- Declare a relation. -/
def withRelation (e : Entity) (target : String) (fields : List (String × String)) : Entity :=
  { e with relations := e.relations ++ [{ target, fields }] }

end Entity

/-- Entities by name. -/
structure Catalog where
  /-- Each name with its entity; a name occurs once. -/
  entities : List (String × Entity) := []

namespace Catalog

/-- Entries with the one of a name replaced, or with a new one at the end. -/
def insertEntry : List (String × Entity) → String → Entity → List (String × Entity)
  | [], name, entity => [(name, entity)]
  | entry :: rest, name, entity =>
    if entry.1 = name then (name, entity) :: rest else entry :: insertEntry rest name entity

/-- Declare an entity, replacing an earlier one of the same name. -/
def insert (c : Catalog) (name : String) (entity : Entity) : Catalog :=
  ⟨insertEntry c.entities name entity⟩

/-- The entity of a name. -/
def get? (c : Catalog) (name : String) : Option Entity := c.entities.lookup name

/-- Table of an entity: its own name unless another is declared. -/
def table (c : Catalog) (entity : String) : String :=
  ((c.get? entity).bind (·.table)).getD entity

/-- The first declaration of a property, or the property as a column of its own name. -/
def field (c : Catalog) (entity property : String) : Field :=
  ((c.get? entity).bind fun e => e.fields.find? fun f => f.property == property).getD { property }

/-- Column of a property. -/
def column (c : Catalog) (entity property : String) : String := (c.field entity property).column

/-- Declared properties of an entity. -/
def declaredFields (c : Catalog) (entity : String) : List Field :=
  match c.get? entity with
  | some e => e.fields
  | none => []

/-- Properties of the primary key. -/
def primaryKeys (c : Catalog) (entity : String) : List String :=
  ((c.declaredFields entity).filter (·.primaryKey)).map (·.property)

/-- Pairs of the first relation declared from `source` to `target`. -/
def relationFields (c : Catalog) (source target : String) : List (String × String) :=
  match (c.get? source).bind fun e => e.relations.find? fun r => r.target == target with
  | some relation => relation.fields
  | none => []

/-- Fields that a read returns, in the order of their declaration. -/
def queryFields (c : Catalog) (entity : String) : List Field :=
  (c.declaredFields entity).filter (·.queryable)

/-- Fields that an insert writes, in the order of their declaration. -/
def editFields (c : Catalog) (entity : String) : List Field :=
  (c.declaredFields entity).filter (·.editable)

/-- Field that stands for the row when rows are counted: the first of the primary key, else the
first queryable one. -/
def defaultField? (c : Catalog) (entity : String) : Option Field :=
  match c.primaryKeys entity with
  | key :: _ => some (c.field entity key)
  | [] => (c.queryFields entity).head?

end Catalog

end AbstractSql
