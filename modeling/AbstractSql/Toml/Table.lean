import AbstractSql.Json

/-!
# Tables of a TOML document

A document is a table that grows line by line. Its lines open tables, append tables to arrays and
enter values, each under a dotted key. What a line may still change depends on how a table came to
be: a table is declared once, by its header or by the braces around it, and only dotted keys go on
with a table that a dotted key has made.
-/

namespace AbstractSql.Toml

/-- How a table came to be. -/
inductive Origin where
  /-- By a header of its own, by braces, or as the whole document. -/
  | declared
  /-- By a header that names something inside it. -/
  | implied
  /-- By a dotted key. -/
  | dotted
  deriving DecidableEq

/-- What stands under a key while a document is read. -/
inductive Node where
  /-- A complete value. -/
  | value (json : Json)
  /-- A table, which may still grow. -/
  | table (origin : Origin) (entries : List (String × Node))
  /-- An array of declared tables, the last of which may still grow. -/
  | tables (items : List (List (String × Node)))
  deriving Inhabited

/-- Keys of a table with what stands under them. -/
abbrev Entries := List (String × Node)

/-- A dotted key: the way to a table, and the key inside it. -/
structure Key where
  /-- Keys of the tables on the way. -/
  path : List String := []
  /-- The last key. -/
  name : String

/-- All parts of a dotted key. -/
def Key.parts (key : Key) : List String := key.path ++ [key.name]

namespace Entries

/-- Put something under a key, in place of what stands there. -/
def put : Entries → String → Node → Entries
  | [], key, node => [(key, node)]
  | entry :: rest, key, node =>
    if entry.1 = key then (key, node) :: rest else entry :: put rest key node

/-- Change the table at the end of a way. Missing tables on the way are made with the given
origin; a dotted key does not lead into a declared table; and through an array of tables the way
leads into the last one. -/
def update (made : Origin) (change : Origin → Entries → Option Entries) :
    List String → Origin → Entries → Option Entries
  | [], origin, entries => change origin entries
  | key :: path, _, entries =>
    match entries.lookup key with
    | none => do
      let inner ← update made change path made []
      return entries ++ [(key, .table made inner)]
    | some (.table origin inner) =>
      if made = .dotted && origin = .declared then none
      else do
        let inner ← update made change path origin inner
        return put entries key (.table origin inner)
    | some (.tables items) => do
      let last ← update made change path .declared (items.getLast?.getD [])
      return put entries key (.tables (items.dropLast ++ [last]))
    | some (.value _) => none

/-- Enter a value under a dotted key. The last part has to be new, and it enters the table where
the key starts or one that dotted keys have made. -/
def enter (key : Key) (json : Json) (entries : Entries) : Option Entries :=
  let change (origin : Origin) (inner : Entries) : Option Entries :=
    if (key.path.isEmpty || origin = .dotted) && (inner.lookup key.name).isNone then
      some (inner ++ [(key.name, .value json)])
    else none
  update .dotted change key.path .declared entries

/-- Declare the table that a header names. It may be implied so far. -/
def declare (key : Key) (entries : Entries) : Option Entries :=
  let change (_ : Origin) (inner : Entries) : Option Entries :=
    match inner.lookup key.name with
    | none => some (inner ++ [(key.name, .table .declared [])])
    | some (.table .implied under) => some (put inner key.name (.table .declared under))
    | some _ => none
  update .implied change key.path .declared entries

/-- Append a table to the array of tables that a header names. -/
def append (key : Key) (entries : Entries) : Option Entries :=
  let change (_ : Origin) (inner : Entries) : Option Entries :=
    match inner.lookup key.name with
    | none => some (inner ++ [(key.name, .tables [[]])])
    | some (.tables items) => some (put inner key.name (.tables (items ++ [[]])))
    | some _ => none
  update .implied change key.path .declared entries

end Entries

mutual

/-- The value of what stands under a key. -/
def Node.toJson : Node → Json
  | .value json => json
  | .table _ entries => .object (entriesToMembers entries)
  | .tables items => .array (tablesToItems items)

/-- The members of a table. -/
def entriesToMembers : List (String × Node) → List (String × Json)
  | [] => []
  | (key, node) :: rest => (key, node.toJson) :: entriesToMembers rest

/-- The tables of an array. -/
def tablesToItems : List (List (String × Node)) → List Json
  | [] => []
  | entries :: rest => .object (entriesToMembers entries) :: tablesToItems rest

end

/-- The value of a table. -/
def Entries.toJson (entries : Entries) : Json := .object (entriesToMembers entries)

/-- A document so far. -/
structure Document where
  /-- Entries of the whole document. -/
  entries : Entries := []
  /-- Way to the table that the last header has opened. -/
  opened : List String := []

/-- A line of a document that is not blank. -/
inductive Line where
  /-- A header that declares a table. -/
  | table (key : Key)
  /-- A header that appends a table to an array. -/
  | element (key : Key)
  /-- A key with its value. -/
  | entry (key : Key) (value : Json)

/-- Take in a line. -/
def Document.add (document : Document) : Line → Option Document
  | .table key => do
    return { entries := ← document.entries.declare key, opened := key.parts }
  | .element key => do
    return { entries := ← document.entries.append key, opened := key.parts }
  | .entry key value => do
    let change (_ : Origin) (inner : Entries) : Option Entries := inner.enter key value
    let entries ← Entries.update .implied change document.opened .declared document.entries
    return { document with entries }

end AbstractSql.Toml
