import AbstractSql.Query

/-!
# The command model

A `Command` inserts, updates or deletes rows of an entity, or is a statement text or a procedure
call. Its payload is a parameter set keyed by property names; an update also lists the properties
it sets and, for some of them, an operator that is applied to the present value.
-/

namespace AbstractSql

/-- What a command does. -/
inductive CommandKind where
  /-- Run a statement text, or call the procedure that the text names. -/
  | text (text : String) (isProcedure : Bool)
  /-- Add a row. -/
  | insert
  /-- Change rows. -/
  | update
  /-- Remove rows. -/
  | delete
  deriving DecidableEq

/-- An operation on the present value of a column. -/
inductive Arithmetic where
  /-- Sum. -/
  | add
  /-- Difference. -/
  | subtract
  /-- Product. -/
  | multiply
  /-- Quotient. -/
  | divide
  deriving DecidableEq

/-- Operator text of an operation. -/
def Arithmetic.sql : Arithmetic → String
  | add => "+"
  | subtract => "-"
  | multiply => "*"
  | divide => "/"

/-- A write. -/
structure Command where
  /-- What is done. -/
  kind : CommandKind
  /-- The entity it is done to. -/
  entity : String := ""
  /-- Table that takes the place of the entity's own. -/
  objectName : Option String := none
  /-- Properties that an update sets. -/
  fields : List String := []
  /-- Which rows an update or a delete touches. -/
  query : Option Query := none
  /-- Payload by property name. -/
  values : ParameterSet := {}
  /-- Properties that an update computes from their present value. -/
  calculations : List (String × Arithmetic) := []
  /-- Whether touching no row is a failure. -/
  mustAffectRows : Bool := false

namespace Command

/-- The command that inserts a row. -/
def ofInsert (entity : String) (values : ParameterSet) : Command :=
  { kind := .insert, entity, values }

/-- The command that updates an entity, with nothing to set yet. -/
def ofUpdate (entity : String) : Command := { kind := .update, entity }

/-- The command that deletes the rows of an entity. -/
def ofDelete (entity : String) : Command := { kind := .delete, entity }

/-- The command that runs a statement text. -/
def ofText (text : String) (values : ParameterSet) : Command := { kind := .text text false, values }

/-- The command that calls a procedure. -/
def ofProcedure (name : String) (values : ParameterSet) : Command :=
  { kind := .text name true, values }

/-- Name a property as one that is set, unless it is named already. -/
def touch (c : Command) (field : String) : Command :=
  if c.fields.contains field then c else { c with fields := c.fields ++ [field] }

/-- Drop the calculations of a property. -/
def dropCalculation (c : Command) (field : String) : Command :=
  { c with calculations := c.calculations.filter fun entry => entry.1 != field }

/-- Set a property to a value. -/
def set (c : Command) (field : String) (value : Value) : Command :=
  (({ c with values := c.values.add field value }).dropCalculation field).touch field

/-- Compute a property from its present value. A payload entry for it keeps what is declared
about it. -/
def calculate (c : Command) (field : String) (operator : Arithmetic) (operand : Value) : Command :=
  let values :=
    if c.values.contains field then c.values.modify field operand else c.values.add field operand
  let cleared := ({ c with values }).dropCalculation field
  ({ cleared with calculations := cleared.calculations ++ [(field, operator)] }).touch field

/-- Restrict the rows. -/
def filtered (c : Command) (query : Query) : Command := { c with query := some query }

/-- Put another table in the place of the entity's own. -/
def onObject (c : Command) (name : String) : Command := { c with objectName := some name }

/-- Make touching no row a failure. -/
def mustAffect (c : Command) : Command := { c with mustAffectRows := true }

/-- The operator a property is computed by, if it is. -/
def calculation? (c : Command) (field : String) : Option Arithmetic :=
  c.calculations.lookup field

end Command

end AbstractSql
