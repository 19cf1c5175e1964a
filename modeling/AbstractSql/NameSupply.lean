/-!
# Generated names

One `NameSupply` goes through everything that is compiled together. Aliases of subqueries and of
closure tables start again with each statement. Parameter names do not: a base gets the next number
that makes it a name not yet issued, so statements that end up in one unit never share a name.
-/

namespace AbstractSql

/-- Name and alias of a table that holds a closure. -/
structure ClosureTable where
  /-- Name of the table. -/
  name : String
  /-- Alias it is used under. -/
  shortName : String
  deriving DecidableEq

/-- Counters and names that have been used. -/
structure NameSupply where
  /-- Number of the next subquery alias. -/
  aliases : Nat := 0
  /-- Number of the next closure table. -/
  closures : Nat := 0
  /-- Number in the parameter name issued last. -/
  sequence : Nat := 0
  /-- Parameter names issued or reserved. -/
  issued : List String := []
  deriving DecidableEq

namespace NameSupply

/-- Alias of the main table of a statement. -/
def mainAlias : String := "TB"

/-- Start the aliases again. -/
def resetAliases (names : NameSupply) : NameSupply := { names with aliases := 0, closures := 0 }

/-- Forget every parameter name. -/
def resetParameters (names : NameSupply) : NameSupply := { names with sequence := 0, issued := [] }

/-- Keep a name from being issued. -/
def reserve (names : NameSupply) (name : String) : NameSupply :=
  if names.issued.contains name then names else { names with issued := name :: names.issued }

/-- Keep all the given names from being issued. -/
def reserveAll (names : NameSupply) (reserved : List String) : NameSupply :=
  reserved.foldl reserve names

/-- The next subquery alias. -/
def nextAlias (names : NameSupply) : String × NameSupply :=
  ("S" ++ toString names.aliases, { names with aliases := names.aliases + 1 })

/-- The next closure table. -/
def nextClosure (names : NameSupply) : ClosureTable × NameSupply :=
  (⟨"RecurveTable" ++ toString names.closures, "RTT" ++ toString names.closures⟩,
    { names with closures := names.closures + 1 })

/-- The first number from `number` on that makes `base` a free name. With `tries` as large as the
number of issued names one of the numbers tried is free, so nothing is lost by stopping then. -/
def firstFree (issued : List String) (base : String) : Nat → Nat → Nat
  | 0, number => number
  | tries + 1, number =>
    if issued.contains (base ++ toString number) then firstFree issued base tries (number + 1)
    else number

/-- The base with the least number above the last one that makes it a free name. -/
def nextParameter (names : NameSupply) (base : String) : String × NameSupply :=
  let number := firstFree names.issued base names.issued.length (names.sequence + 1)
  let name := base ++ toString number
  (name, { names with sequence := number, issued := name :: names.issued })

end NameSupply

end AbstractSql
