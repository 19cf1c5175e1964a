import AbstractSql.Value

/-!
# Named parameters

A `ParameterSet` keeps its entries in the order of their first insertion. Inserting under a name
that is taken replaces the entry where it stands, and a union inserts the entries of the second set
one after another, so that they win.
-/

namespace AbstractSql

/-- Which way a value travels. -/
inductive ParameterDirection where
  /-- To the server. -/
  | input
  /-- From the server. -/
  | output
  /-- Both ways. -/
  | inputOutput
  /-- The result of a procedure. -/
  | returnValue
  deriving DecidableEq, Inhabited

/-- Declared type of a parameter. -/
inductive SqlType where
  /-- Truth values. -/
  | bool
  /-- 32-bit integers. -/
  | int
  /-- 64-bit integers. -/
  | bigInt
  /-- Exact decimals. -/
  | decimal
  /-- Binary64 numbers. -/
  | double
  /-- Texts. -/
  | string
  /-- Points in civil time. -/
  | dateTime
  /-- Bytes. -/
  | binary
  deriving DecidableEq

/-- A named value with what its caller declares about it. -/
structure Parameter where
  /-- Name without the placeholder mark. -/
  name : String
  /-- What is bound. -/
  value : Value
  /-- Which way the value travels. -/
  direction : ParameterDirection := .input
  /-- Declared length. -/
  size : Option UInt32 := none
  /-- Declared number of digits. -/
  precision : Option UInt8 := none
  /-- Declared number of decimal places. -/
  scale : Option UInt8 := none
  /-- Declared type. -/
  sqlType : Option SqlType := none
  deriving Inhabited

/-- Parameters in the order of their first insertion. -/
structure ParameterSet where
  /-- The entries. -/
  items : List Parameter := []
  deriving Inhabited

namespace ParameterSet

/-- The first entry with the name of `p` gives way to `p`; without one `p` goes to the end. -/
def insertItem : List Parameter → Parameter → List Parameter
  | [], p => [p]
  | q :: rest, p => if q.name = p.name then p :: rest else q :: insertItem rest p

/-- Insert a parameter, replacing the one of the same name where it stands. -/
def insert (set : ParameterSet) (p : Parameter) : ParameterSet := ⟨insertItem set.items p⟩

/-- Insert a value under a name, with nothing declared about it. -/
def add (set : ParameterSet) (name : String) (value : Value) : ParameterSet :=
  set.insert { name, value }

/-- The set of the given pairs, the later ones replacing the earlier. -/
def ofPairs (pairs : List (String × Value)) : ParameterSet :=
  pairs.foldl (fun set pair => set.add pair.1 pair.2) {}

/-- The first entry under a name. -/
def get? (set : ParameterSet) (name : String) : Option Parameter :=
  set.items.find? fun p => p.name == name

/-- The value of the first entry under a name. -/
def value? (set : ParameterSet) (name : String) : Option Value := (set.get? name).map (·.value)

/-- Whether a name is taken. -/
def contains (set : ParameterSet) (name : String) : Bool := set.items.any fun p => p.name == name

/-- The first entry under `name` takes a new value. -/
def modifyItem (name : String) (value : Value) : List Parameter → List Parameter
  | [] => []
  | p :: rest => if p.name = name then { p with value } :: rest else p :: modifyItem name value rest

/-- Give the first entry under a name a new value, keeping what is declared about it. -/
def modify (set : ParameterSet) (name : String) (value : Value) : ParameterSet :=
  ⟨modifyItem name value set.items⟩

/-- All entries of both sets; those of the second win. -/
def union (set other : ParameterSet) : ParameterSet := other.items.foldl insert set

/-- The names in order. -/
def names (set : ParameterSet) : List String := set.items.map (·.name)

/-- Number of entries. -/
def size (set : ParameterSet) : Nat := set.items.length

/-- Whether there is no entry. -/
def isEmpty (set : ParameterSet) : Bool := set.items.isEmpty

end ParameterSet

end AbstractSql
