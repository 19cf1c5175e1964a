import AbstractSql.Failure
import AbstractSql.Translation

/-!
# The workspace of a translation

Translating a query issues names and binds values. Both outlive a failure: what was issued before
it stays issued. So a translation step is a function of the workspace that returns the workspace
in either case.
-/

namespace AbstractSql

/-- Names issued and values bound so far. -/
structure Workspace where
  /-- The supply of names. -/
  names : NameSupply := {}
  /-- The values bound so far. -/
  parameters : ParameterSet := {}
  deriving Inhabited

/-- A step that may fail and leaves a workspace in either case. -/
abbrev Translating := ExceptT Failure (StateM Workspace)

namespace Translating

/-- The alias of the next subquery. -/
def nextAlias : Translating String := do
  let issued := (← get).names.nextAlias
  modify fun w => { w with names := issued.2 }
  return issued.1

/-- The next closure table. -/
def nextClosure : Translating ClosureTable := do
  let issued := (← get).names.nextClosure
  modify fun w => { w with names := issued.2 }
  return issued.1

/-- Bind a value under a new name made from `base`, and return the name. -/
def bindFresh (base : String) (value : Value) : Translating String := do
  let issued := (← get).names.nextParameter base
  modify fun w => ⟨issued.2, w.parameters.add issued.1 value⟩
  return issued.1

/-- Bind the parameters of a statement text under their own names. -/
def bindText (parameters : ParameterSet) : Translating Unit :=
  modify fun w => ⟨w.names.reserveAll parameters.names, w.parameters.union parameters⟩

/-- A step that has nothing to do with the workspace. -/
def lift {α : Type} (result : Except Failure α) : Translating α :=
  match result with
  | .ok a => pure a
  | .error failure => throw failure

/-- Fail unless something holds. -/
def ensure (holds : Bool) (failure : Failure) : Translating Unit :=
  lift (if holds then .ok () else .error failure)

end Translating

end AbstractSql
