import AbstractSql.Decimal.Shortest
import AbstractSql.Json

/-!
# Writing JSON texts

A value is written without white space, with its members in order. In texts only quotes,
backslashes and control characters are escaped. What stands for no value is written as null.
-/

namespace AbstractSql.Json

/-- How one character stands in a text. -/
def escapedCharacter (c : Char) : String :=
  if c == '\x22' then "\\\""
  else if c == '\\' then "\\\\"
  else if c.toNat < 0x20 then
    let digits := Nat.toDigits 16 c.toNat
    "\\u" ++ String.ofList (List.replicate (4 - digits.length) '0' ++ digits)
  else c.toString

/-- A text between quotes. -/
def quoteText (s : String) : String :=
  "\"" ++ String.join (s.toList.map escapedCharacter) ++ "\""

/-- Text of a number. -/
def numberText : JsonNumber → String
  | .unsigned n => toString n.toNat
  | .negative n => toString n.toInt
  | .float x => Decimal.text x

mutual

/-- The pieces of the text of a value, in front of `rest`. -/
def pieces (rest : List String) : Json → List String
  | null => "null" :: rest
  | bool b => (if b then "true" else "false") :: rest
  | number n => numberText n :: rest
  | string s => quoteText s :: rest
  | array items => "[" :: itemPieces ("]" :: rest) items
  | object members => "\x7b" :: memberPieces ("\x7d" :: rest) members
  | unreadable => "null" :: rest

/-- The pieces of the members of an array, in front of `rest`. -/
def itemPieces (rest : List String) : List Json → List String
  | [] => rest
  | [item] => pieces rest item
  | item :: next :: items => pieces ("," :: itemPieces rest (next :: items)) item

/-- The pieces of the members of an object, in front of `rest`. -/
def memberPieces (rest : List String) : List (String × Json) → List String
  | [] => rest
  | [(key, value)] => quoteText key :: ":" :: pieces rest value
  | (key, value) :: next :: members =>
    quoteText key :: ":" :: pieces ("," :: memberPieces rest (next :: members)) value

end

/-- Text of a value. -/
def text (json : Json) : String := String.join (pieces [] json)

end AbstractSql.Json
