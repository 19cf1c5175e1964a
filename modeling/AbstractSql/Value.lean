import AbstractSql.Calendar
import AbstractSql.Decimal.Shortest

/-!
# Bound values

What a placeholder can stand for: a scalar, or a list for the membership operators. `Value.display`
is the form shown to people, `Value.asText` the one that goes into a LIKE pattern.
-/

namespace AbstractSql

/-- A value bound to a placeholder. -/
inductive Value where
  /-- No value. -/
  | null
  /-- A truth value. -/
  | bool (b : Bool)
  /-- A signed 64-bit integer. -/
  | int (n : Int64)
  /-- A binary64 number. -/
  | float (x : Float)
  /-- A text. -/
  | string (s : String)
  /-- A point in civil time. -/
  | dateTime (t : DateTime)
  /-- Members of a list, each bound on its own. -/
  | list (items : List Value)
  deriving Inhabited

namespace Value

/-- Whether there is no value. -/
def isNull : Value → Bool
  | null => true
  | _ => false

mutual

/-- Form shown to people: texts and times between single quotes, lists in parentheses. -/
def display : Value → String
  | null => "NULL"
  | bool b => if b then "true" else "false"
  | int n => toString n.toInt
  | float x => Decimal.text x
  | string s => "'" ++ s ++ "'"
  | dateTime t => "'" ++ t.spaced ++ "'"
  | list items => "(" ++ displayItems items ++ ")"

/-- Members with a comma and a space between them. -/
def displayItems : List Value → String
  | [] => ""
  | [v] => v.display
  | v :: w :: rest => v.display ++ ", " ++ displayItems (w :: rest)

end

/-- Text that goes into a LIKE pattern: a text as it stands, nothing for no value. -/
def asText : Value → String
  | string s => s
  | null => ""
  | other => other.display

/-- A list as it stands, a scalar as the only member of one. -/
def intoList : Value → Value
  | list items => list items
  | scalar => list [scalar]

end Value

end AbstractSql
