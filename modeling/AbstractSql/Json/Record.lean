import AbstractSql.Json

/-!
# Records in JSON values

A structure is written as an object with one member for each part, or as an array of the parts in
order. A choice is written as its name, or as an object whose only key is its name. The functions
here take such values apart; what does not fit is refused as a whole.
-/

namespace AbstractSql

/-- What a document format lets pass in the form of structures. -/
structure Dialect where
  /-- Whether an array may hold more items than are asked for. -/
  surplusItems : Bool
  /-- Whether the contents of a choice may be listed in an array. -/
  listedContents : Bool
  /-- Whether a value may stand where a choice has no contents. -/
  isEmpty : Json → Bool

/-- The form in JSON: no surplus, and null for no contents. -/
def Dialect.json : Dialect where
  surplusItems := false
  listedContents := false
  isEmpty
    | .null => true
    | _ => false

/-- The form in files of JSON, in which contents may be listed. -/
def Dialect.jsonFile : Dialect := { Dialect.json with listedContents := true }

/-- The form in TOML: surplus is passed over, and an empty table or array has no contents. -/
def Dialect.toml : Dialect where
  surplusItems := true
  listedContents := false
  isEmpty
    | .array [] => true
    | .object [] => true
    | _ => false

/-- Parts of a structure by name. -/
structure JsonRecord where
  /-- The part of a name, if it is written. -/
  part? : String → Option Json

namespace JsonRecord

/-- How often a name occurs as a key. -/
def occurrences (members : List (String × Json)) (name : String) : Nat :=
  (members.filter fun member => member.1 == name).length

/-- The parts of a structure with the given names. Other keys do not count, but none of these may
be repeated. -/
def of? (d : Dialect) (names : List String) : Json → Option JsonRecord
  | .object members =>
    if names.all fun name => occurrences members name ≤ 1 then
      some ⟨fun name => if names.contains name then members.lookup name else none⟩
    else none
  | .array items =>
    if d.surplusItems || items.length ≤ names.length then
      some ⟨fun name => (names.zip items).lookup name⟩
    else none
  | _ => none

/-- A part that has to be written. -/
def required {α : Type} (r : JsonRecord) (name : String) (decode : Json → Option α) : Option α :=
  (r.part? name).bind decode

/-- A part with a value to take when it is not written. -/
def defaulted {α : Type} (r : JsonRecord) (name : String) (value : α)
    (decode : Json → Option α) : Option α :=
  match r.part? name with
  | none => some value
  | some json => decode json

/-- A part that may be left out or be null. -/
def optional {α : Type} (r : JsonRecord) (name : String) (decode : Json → Option α) :
    Option (Option α) :=
  match r.part? name with
  | none => some none
  | some .null => some none
  | some json => (decode json).map some

end JsonRecord

namespace Json

/-- A truth value. -/
def toBool? : Json → Option Bool
  | bool b => some b
  | _ => none

/-- A text. -/
def toText? : Json → Option String
  | string s => some s
  | _ => none

/-- A signed integer of 64 bits. -/
def toInt? : Json → Option Int64
  | number n => n.toInt?
  | _ => none

/-- A natural number below a bound. -/
def toNat? (bound : Nat) : Json → Option Nat
  | number n => n.toNat? bound
  | _ => none

/-- A natural number of 64 bits. -/
def toWord? (json : Json) : Option UInt64 := (json.toNat? UInt64.size).map Nat.toUInt64

/-- Values in order. -/
def toList? {α : Type} (decode : Json → Option α) : Json → Option (List α)
  | array items => items.mapM decode
  | _ => none

/-- Two values. -/
def toPair? {α β : Type} (d : Dialect) (first : Json → Option α) (second : Json → Option β) :
    Json → Option (α × β)
  | array [a, b] => do return (← first a, ← second b)
  | array (a :: b :: _) => if d.surplusItems then do return (← first a, ← second b) else none
  | _ => none

/-- Two texts. -/
def toTextPair? (d : Dialect) : Json → Option (String × String) := toPair? d toText? toText?

/-- One of some named choices without contents. -/
def toChoice? {α : Type} (d : Dialect) (choices : List (String × α)) : Json → Option α
  | string name => choices.lookup name
  | object [(name, contents)] => if d.isEmpty contents then choices.lookup name else none
  | _ => none

/-- Two texts in order. -/
def textPair (pair : String × String) : Json := array [string pair.1, string pair.2]

end Json

end AbstractSql
