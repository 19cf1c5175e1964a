import AbstractSql.Catalog
import AbstractSql.Failure
import AbstractSql.Identifier
import AbstractSql.Text.Parts

/-!
# Fields in statements

How a property is written: as a column reference in a condition or a sort, as an entry of a select
list, and under a conversion. Inside a derived table the entries are bare columns, so that the
enclosing statement can refer to them by their column names.
-/

namespace AbstractSql

/-- A conversion applied to a column. Only the number of characters is known. -/
def Conversion.render (conversion : Conversion) (tableAlias column : String) :
    Except Failure String :=
  if conversion.name = Conversion.stringLength.name then
    .ok ("CHAR_LENGTH(" ++ Identifier.qualify tableAlias column ++ ")")
  else .error (.unknownConversion conversion.name)

/-- Entry of a select list. With `aliased` it carries the template and the name of its property,
without it only the column. -/
def Field.selectEntry (field : Field) (tableAlias : String) (aliased : Bool) : String :=
  let column := Identifier.qualify tableAlias field.column
  if aliased then
    match field.queryFormat with
    | some format =>
      Text.substitute "\x7b0\x7d" column format ++ " AS " ++ Identifier.quote field.property
    | none =>
      if field.column = field.property then column
      else column ++ " AS " ++ Identifier.quote field.property
  else column

namespace Catalog

/-- Reference to a property in a condition or a sort. -/
def reference (c : Catalog) (entity tableAlias property : String) (conversion : Option Conversion) :
    Except Failure String :=
  match conversion with
  | some conversion => conversion.render tableAlias (c.column entity property)
  | none => .ok (Identifier.qualify tableAlias (c.column entity property))

/-- Fields of the selected properties; all queryable ones when nothing is selected. -/
def selectedFields (c : Catalog) (entity : String) (selected : List String) : List Field :=
  match selected with
  | [] => c.queryFields entity
  | properties => properties.map (c.field entity)

/-- Select list of an entity; everything under the alias when there is no field to name. -/
def selectList (c : Catalog) (tableAlias entity : String) (selected : List String)
    (aliased : Bool) : String :=
  match c.selectedFields entity selected with
  | [] => tableAlias ++ ".*"
  | fields => String.intercalate "," (fields.map fun f => f.selectEntry tableAlias aliased)

end Catalog

end AbstractSql
