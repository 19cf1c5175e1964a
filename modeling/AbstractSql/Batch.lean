import AbstractSql.ExecutionUnit

/-!
# Grouping units

Compiled units are merged in order into larger ones. A unit that has to stay alone ends the group
before it. A policy decides for every other unit whether the group still admits it, and after each
merge whether the group is full.
-/

namespace AbstractSql

/-- Size of a unit or of a group of merged units. -/
structure GroupSize where
  /-- Number of statements. -/
  statements : Nat
  /-- Number of parameters. -/
  parameters : Nat
  deriving DecidableEq

/-- Size of a unit. -/
def ExecutionUnit.size (u : ExecutionUnit) : GroupSize := ⟨u.statements.length, u.parameters.size⟩

/-- Decides where groups end. -/
structure BatchPolicy where
  /-- Whether a group of the first size admits a unit of the second. -/
  admits : GroupSize → GroupSize → Bool
  /-- Whether a group is full. -/
  isFull : GroupSize → Bool

/-- Largest numbers of statements and parameters of a group. -/
structure Thresholds where
  /-- A group of this many statements is full. -/
  statements : Nat
  /-- A group of this many parameters is full, and none grows beyond it by merging. -/
  parameters : Nat
  deriving DecidableEq

namespace Thresholds

/-- A threshold as it is asked for: none is as good as the largest size, and one that is not
positive counts as 1. -/
def clamp : Option Int64 → Nat
  | none => sizeLimit
  | some n => max 1 n.toInt.toNat

/-- The thresholds asked for. -/
def ofRequest (statements parameters : Option Int64) : Thresholds :=
  ⟨clamp statements, clamp parameters⟩

/-- No threshold below the largest size. -/
def unbounded : Thresholds := ofRequest none none

/-- Groups that respect the thresholds. Sums stop at the largest size. -/
def toPolicy (t : Thresholds) : BatchPolicy where
  admits pending incoming := min (pending.parameters + incoming.parameters) sizeLimit ≤ t.parameters
  isFull pending := t.statements ≤ pending.statements || t.parameters ≤ pending.parameters

end Thresholds

namespace BatchPolicy

/-- Group units in order, after a group that is still open. -/
def group (policy : BatchPolicy) : Option ExecutionUnit → List ExecutionUnit → List ExecutionUnit
  | pending, [] => pending.toList
  | pending, u :: rest =>
    if u.performAlone then pending.toList ++ u :: group policy none rest
    else
      match pending with
      | none => if policy.isFull u.size then u :: group policy none rest
        else group policy (some u) rest
      | some g =>
        if policy.admits g.size u.size then
          if policy.isFull (g.merge u).size then g.merge u :: group policy none rest
          else group policy (some (g.merge u)) rest
        else if policy.isFull u.size then g :: u :: group policy none rest
        else g :: group policy (some u) rest

end BatchPolicy

/-- The units of a list of commands, compiled in order with one supply of names. When a command
fails, the units before it are returned with the failure. -/
def Command.compileAll (catalog : Catalog) :
    List Command → NameSupply → List ExecutionUnit × Option Failure
  | [], _ => ([], none)
  | c :: rest, names =>
    match (c.toUnit catalog).run.run names with
    | (.error failure, _) => ([], some failure)
    | (.ok u, names) =>
      let compiled := compileAll catalog rest names
      (u :: compiled.1, compiled.2)

/-- Compile commands and group their units; the first failure is the failure of the whole list. -/
def Command.planAll (catalog : Catalog) (policy : BatchPolicy) (commands : List Command) :
    Except Failure (List ExecutionUnit) :=
  match compileAll catalog commands {} with
  | (_, some failure) => .error failure
  | (units, none) => .ok (policy.group none units)

end AbstractSql
