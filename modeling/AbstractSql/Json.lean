/-!
# JSON values

A value keeps the members of an object in the order of the text, with repeated keys. Integers of 64
bits are exact; every other number is a binary64 number. A text may also hold parts that are well
formed and still stand for no value; they do no harm where nobody asks for them.
-/

namespace AbstractSql

/-- A number of a JSON text. -/
inductive JsonNumber where
  /-- An integer without sign. -/
  | unsigned (n : UInt64)
  /-- A negative integer. -/
  | negative (n : Int64)
  /-- Any other number. -/
  | float (x : Float)
  deriving Inhabited

/-- A JSON value. -/
inductive Json where
  /-- The null value. -/
  | null
  /-- A truth value. -/
  | bool (b : Bool)
  /-- A number. -/
  | number (n : JsonNumber)
  /-- A text. -/
  | string (s : String)
  /-- Values in order. -/
  | array (items : List Json)
  /-- Keys and values in order. -/
  | object (members : List (String × Json))
  /-- A part of a text that is well formed and stands for no value. -/
  | unreadable
  deriving Inhabited

namespace JsonNumber

/-- An integer of 64 bits as a number. -/
def ofInt (n : Int64) : JsonNumber :=
  if n < 0 then negative n else unsigned n.toInt.toNat.toUInt64

/-- The signed integer of 64 bits that a number is, if it is one. -/
def toInt? : JsonNumber → Option Int64
  | unsigned n => if (n.toNat : Int) ≤ Int64.maxValue.toInt then some (Int64.ofNat n.toNat) else none
  | negative n => some n
  | float _ => none

/-- The natural number below `bound` that a number is, if it is one. -/
def toNat? (bound : Nat) : JsonNumber → Option Nat
  | unsigned n => if n.toNat < bound then some n.toNat else none
  | _ => none

/-- The nearest binary64 number. -/
def toFloat : JsonNumber → Float
  | unsigned n => n.toFloat
  | negative n => n.toFloat
  | float x => x

end JsonNumber

namespace Json

/-- An integer of 64 bits as a value. -/
def int (n : Int64) : Json := number (.ofInt n)

/-- A natural number of 64 bits as a value. -/
def nat (n : UInt64) : Json := number (.unsigned n)

/-- A value, or null. -/
def optional {α : Type} (encode : α → Json) : Option α → Json
  | none => null
  | some a => encode a

/-- Values in order. -/
def list {α : Type} (encode : α → Json) (items : List α) : Json := array (items.map encode)

mutual

/-- Height of a value: one for a scalar or an empty list. -/
def height : Json → Nat
  | array items => heightOfItems items + 1
  | object members => heightOfMembers members + 1
  | _ => 1

/-- Largest height of the members of an array. -/
def heightOfItems : List Json → Nat
  | [] => 0
  | item :: rest => max item.height (heightOfItems rest)

/-- Largest height of the values of an object. -/
def heightOfMembers : List (String × Json) → Nat
  | [] => 0
  | (_, value) :: rest => max value.height (heightOfMembers rest)

end

mutual

/-- Whether every part of a value is readable. -/
def isReadable : Json → Bool
  | unreadable => false
  | array items => areReadableItems items
  | object members => areReadableMembers members
  | _ => true

/-- Whether every member of an array is readable. -/
def areReadableItems : List Json → Bool
  | [] => true
  | item :: rest => item.isReadable && areReadableItems rest

/-- Whether every value of an object is readable. -/
def areReadableMembers : List (String × Json) → Bool
  | [] => true
  | (_, value) :: rest => value.isReadable && areReadableMembers rest

end

/-- Members with the last value of each key, where the key stands first. -/
def insertMember : List (String × Json) → String → Json → List (String × Json)
  | [], key, value => [(key, value)]
  | member :: rest, key, value =>
    if member.1 = key then (key, value) :: rest else member :: insertMember rest key value

mutual

/-- A value in which no object repeats a key: the last value of a key counts. -/
def lastWins : Json → Json
  | array items => array (lastWinsItems items)
  | object members => object (lastWinsMembers members [])
  | scalar => scalar

/-- The members of an array without repeated keys inside them. -/
def lastWinsItems : List Json → List Json
  | [] => []
  | item :: rest => item.lastWins :: lastWinsItems rest

/-- The members of an object, inserted after those in `kept`. -/
def lastWinsMembers : List (String × Json) → List (String × Json) → List (String × Json)
  | [], kept => kept
  | (key, value) :: rest, kept => lastWinsMembers rest (insertMember kept key value.lastWins)

end

end Json

end AbstractSql
