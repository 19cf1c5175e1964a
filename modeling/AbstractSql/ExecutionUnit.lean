import AbstractSql.Command
import AbstractSql.Statement

/-!
# Execution units

An `ExecutionUnit` is what a connection runs at once: one statement, or several that were merged,
with one set of parameters for all of them. `Command.toUnit` compiles a command into a unit of its
own.
-/

namespace AbstractSql

open Identifier (quote qualify placeholder)

/-- What the text of a unit is. -/
inductive UnitType where
  /-- Statements. -/
  | text
  /-- A call of a procedure. -/
  | procedure
  deriving DecidableEq

/-- What a connection runs at once. -/
structure ExecutionUnit where
  /-- Statements in order. -/
  statements : List String
  /-- What the placeholders of all statements stand for. -/
  parameters : ParameterSet := {}
  /-- What the text is. -/
  unitType : UnitType := .text
  /-- Whether it has to stay a unit of its own. -/
  performAlone : Bool := false
  /-- Whether touching no row is a failure. -/
  mustAffectRows : Bool := false
  /-- Whether definitions may stand in front of the statement. -/
  hasPreScript : Bool := false
  deriving Inhabited

namespace ExecutionUnit

/-- The unit of one statement. -/
def ofStatement (text : String) (parameters : ParameterSet) : ExecutionUnit :=
  { statements := [text], parameters }

/-- All statements, a line break between them. -/
def text (u : ExecutionUnit) : String := String.intercalate "\n" u.statements

/-- The statements of both units in order. Of parameters with one name the second unit's is
kept. -/
def merge (u other : ExecutionUnit) : ExecutionUnit :=
  { u with
    statements := u.statements ++ other.statements
    parameters := u.parameters.union other.parameters
    mustAffectRows := u.mustAffectRows || other.mustAffectRows
    hasPreScript := u.hasPreScript || other.hasPreScript }

end ExecutionUnit

namespace Naming

/-- A new parameter name made from `base`. -/
def fresh (base : String) : Naming String := do
  let issued := (← get).nextParameter base
  set issued.2
  return issued.1

/-- A new parameter name for each base. -/
def freshAll : List String → Naming (List String)
  | [] => return []
  | base :: rest => do
    let name ← fresh base
    let names ← freshAll rest
    return name :: names

end Naming

namespace Command

/-- Table a command works on. -/
def table (c : Command) (catalog : Catalog) : String :=
  quote (c.objectName.getD (catalog.table c.entity))

/-- Query for the rows a command touches: its own, or all rows of its entity. -/
def target (c : Command) : Query := c.query.getD (Query.ofEntity c.entity)

/-- The payload of a property under a new name, or no value when the payload has none. -/
def bindPayload (payload : ParameterSet) (property name : String) : Parameter :=
  match payload.get? property with
  | some p => { p with name }
  | none => { name, value := .null }

/-- The payload of some properties under new names. -/
def bindAll (payload : ParameterSet) (bound : List (String × String)) : ParameterSet :=
  bound.foldl (fun set entry => set.insert (bindPayload payload entry.1 entry.2)) {}

/-- Text of an insertion: a column and a placeholder for every field that an insert writes. -/
def insertText (c : Command) (catalog : Catalog) (names : List String) : String :=
  let columns := (catalog.editFields c.entity).map fun f => quote f.column
  "INSERT INTO " ++ c.table catalog ++ " (" ++ String.intercalate "," columns
    ++ ") VALUES (" ++ String.intercalate "," (names.map placeholder) ++ ");"

/-- Compile an insertion. Every field that an insert writes gets a name of its own. -/
def insertUnit (c : Command) (catalog : Catalog) : Naming ExecutionUnit := do
  if (catalog.editFields c.entity).isEmpty then
    throw (.configuration (.noEditableField c.entity))
  let properties := (catalog.editFields c.entity).map (·.property)
  let names ← Naming.freshAll properties
  return .ofStatement (c.insertText catalog names) (bindAll c.values (properties.zip names))

/-- Right-hand side of an assignment: the bound value, or an operation on the present value of the
column when the property is computed and the payload has an operand. -/
def assignedValue (c : Command) (property column name : String) : String :=
  match c.calculation? property with
  | some operator =>
    if c.values.contains property then column ++ operator.sql ++ placeholder name
    else placeholder name
  | none => placeholder name

/-- Assignment of one property. -/
def assignment (c : Command) (catalog : Catalog) (property name : String) : String :=
  let column := qualify NameSupply.mainAlias (catalog.column c.entity property)
  column ++ "=" ++ c.assignedValue property column name

/-- Text of an update that assigns values under the given names. -/
def updateText (c : Command) (catalog : Catalog) (names : List String) (t : Translation) :
    String :=
  let assignments := (c.fields.zip names).map fun entry => c.assignment catalog entry.1 entry.2
  Text.joinParts
    [t.definitionClause,
      "UPDATE " ++ c.table catalog ++ " AS " ++ NameSupply.mainAlias,
      t.joinClause,
      "SET " ++ String.intercalate ", " assignments,
      t.whereClause] ++ ";"

/-- Text of a deletion. -/
def deleteText (c : Command) (catalog : Catalog) (t : Translation) : String :=
  Text.joinParts
    [t.definitionClause,
      "DELETE " ++ NameSupply.mainAlias ++ " FROM " ++ c.table catalog ++ " AS "
        ++ NameSupply.mainAlias,
      t.joinClause, t.whereClause] ++ ";"

/-- The unit of a statement that may have definitions in front of it; with them it stays alone. -/
def definedUnit (t : Translation) (text : String) (parameters : ParameterSet) : ExecutionUnit :=
  { ExecutionUnit.ofStatement text parameters with
    hasPreScript := t.hasDefinitions
    performAlone := t.hasDefinitions }

/-- Compile an update. The names of the assigned values come before those of the condition. -/
def updateUnit (c : Command) (catalog : Catalog) : Naming ExecutionUnit := do
  if c.fields.isEmpty then throw (.missingUpdateFields c.entity)
  let names ← Naming.freshAll c.fields
  let t ← Statement.translated catalog c.target
  return definedUnit t (c.updateText catalog names t)
    ((bindAll c.values (c.fields.zip names)).union t.parameters)

/-- Compile a deletion. -/
def deleteUnit (c : Command) (catalog : Catalog) : Naming ExecutionUnit := do
  let t ← Statement.translated catalog c.target
  return definedUnit t (c.deleteText catalog t) t.parameters

/-- Compile a statement text or a procedure call. It stays alone, since nothing is known of it. -/
def textUnit (c : Command) (text : String) (isProcedure : Bool) : ExecutionUnit :=
  { statements :=
      [if isProcedure then
          "CALL " ++ text ++ "(" ++ String.intercalate ", " (c.values.names.map placeholder) ++ ")"
        else text]
    parameters := c.values
    unitType := if isProcedure then .procedure else .text
    performAlone := true
    mustAffectRows := c.mustAffectRows
    hasPreScript := true }

/-- Compile a command into a unit of its own. -/
def toUnit (c : Command) (catalog : Catalog) : Naming ExecutionUnit := do
  match c.kind with
  | .text text isProcedure => return c.textUnit text isProcedure
  | .insert => return { (← c.insertUnit catalog) with mustAffectRows := c.mustAffectRows }
  | .update => return { (← c.updateUnit catalog) with mustAffectRows := c.mustAffectRows }
  | .delete => return { (← c.deleteUnit catalog) with mustAffectRows := c.mustAffectRows }

end Command

end AbstractSql
