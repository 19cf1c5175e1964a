import AbstractSql.Calendar
import AbstractSql.Decimal.Reading
import AbstractSql.Json
import AbstractSql.Text.Digit

/-!
# Unquoted values of TOML

Truth values, numbers and points in time are words: nothing that may follow a value goes on with
one. Each kind of word is read as a whole. An underscore may stand between two digits of a number.
A number without fraction and exponent is an integer of 64 bits.
-/

namespace AbstractSql.Toml

/-- Whether a character may stand in a word. -/
def isWordCharacter (c : Char) : Bool :=
  c.isAlphanum || c == '+' || c == '-' || c == '_' || c == '.' || c == ':'

/-- Digits without the single underscores between them. -/
def plainDigits? (cs : List Char) : Option (List Char) :=
  let groups := cs.splitOn '_'
  if groups.all fun group => !group.isEmpty then some groups.flatten else none

/-- Decimal digits without the underscores between them. -/
def decimals? (cs : List Char) : Option (List Char) :=
  (plainDigits? cs).filter fun digits => digits.all Char.isDigit

/-- The digits of a whole decimal number, of which zero alone may start with a zero. -/
def wholeDigits? (cs : List Char) : Option (List Char) :=
  (decimals? cs).filter fun _ => cs.head? != some '0' || cs.length == 1

/-- An integer of 64 bits. -/
def int64? (n : Int) : Option Int64 :=
  if Int64.minValue.toInt ≤ n && n ≤ Int64.maxValue.toInt then some (Int64.ofInt n) else none

/-- An integer in decimals with an optional sign, or without sign in another base that its first
two characters tell. -/
def integer? (cs : List Char) : Option Int64 :=
  let inBase (base : Nat) (digits : List Char) : Option Int64 := do
    int64? (← Text.ofDigits? base (← plainDigits? digits))
  match cs with
  | '0' :: 'x' :: digits => inBase 16 digits
  | '0' :: 'o' :: digits => inBase 8 digits
  | '0' :: 'b' :: digits => inBase 2 digits
  | _ => do
    let (negative, digits) := Decimal.splitSign cs
    let n : Int := Decimal.ofDigits (← wholeDigits? digits)
    int64? (if negative then -n else n)

/-- Whether a letter introduces an exponent. -/
def isExponentMark (c : Char) : Bool := c == 'e' || c == 'E'

/-- Digits with an optional fraction and an optional exponent, one of which has to be there, without
their underscores. -/
def fractional? (cs : List Char) : Option (List Char) := do
  let mantissa := cs.takeWhile fun c => !isExponentMark c
  let exponent := cs.dropWhile fun c => !isExponentMark c
  let exponent ← match exponent with
    | [] => some []
    | mark :: digits =>
      let sign := digits.takeWhile fun c => c == '+' || c == '-'
      if 1 < sign.length then none
      else (decimals? (digits.drop sign.length)).map fun digits => mark :: (sign ++ digits)
  match mantissa.splitOn '.' with
  | [whole] =>
    if exponent.isEmpty then none
    else (wholeDigits? whole).map fun whole => whole ++ exponent
  | [whole, fraction] => do
    return (← wholeDigits? whole) ++ '.' :: (← decimals? fraction) ++ exponent
  | _ => none

/-- A number that is no integer. One that rounds to infinity is refused; a negative one is not. -/
def float? (cs : List Char) : Option Float := do
  let (negative, digits) := Decimal.splitSign cs
  let signed (x : Float) : Float := if negative then -x else x
  match String.ofList digits with
  | "inf" => return signed (1.0 / 0.0)
  | "nan" => return signed (0.0 / 0.0)
  | _ =>
    let x ← (Decimal.read? (String.ofList (← fractional? digits))).map signed
    if x == 1.0 / 0.0 then none else some x

/-! ## Points in time -/

/-- Two digits that write a number no greater than a bound. -/
def twoDigits? (greatest : Nat) (a b : Char) : Option Nat :=
  (Text.ofDigits? 10 [a, b]).filter fun n => n ≤ greatest

/-- A date in front of characters, with what follows it. -/
def date? : List Char → Option (List Char)
  | y₁ :: y₂ :: y₃ :: y₄ :: '-' :: m₁ :: m₂ :: '-' :: d₁ :: d₂ :: rest => do
    let year ← Text.ofDigits? 10 [y₁, y₂, y₃, y₄]
    let month ← twoDigits? 12 m₁ m₂
    let day ← twoDigits? (Calendar.daysInMonth year month) d₁ d₂
    if day = 0 then none else some rest
  | _ => none

/-- A fraction of a second in front of characters, with what follows it. -/
def secondFraction? : List Char → Option (List Char)
  | '.' :: rest => if (rest.takeWhile Char.isDigit).isEmpty then none
    else some (rest.dropWhile Char.isDigit)
  | rest => some rest

/-- A time of day in front of characters, with what follows it. Second 60 is a leap second. -/
def clock? : List Char → Option (List Char)
  | h₁ :: h₂ :: ':' :: m₁ :: m₂ :: ':' :: s₁ :: s₂ :: rest => do
    discard (twoDigits? 23 h₁ h₂)
    discard (twoDigits? 59 m₁ m₂)
    discard (twoDigits? 60 s₁ s₂)
    secondFraction? rest
  | _ => none

/-- Whether characters are a distance from universal time, or none. -/
def isOffset : List Char → Bool
  | [] => true
  | ['Z'] => true
  | ['z'] => true
  | [sign, h₁, h₂, ':', m₁, m₂] =>
    (sign == '+' || sign == '-') && (twoDigits? 23 h₁ h₂).isSome && (twoDigits? 59 m₁ m₂).isSome
  | _ => false

/-- Whether characters are a date, a time of day, or both with an optional distance from universal
time. -/
def isPointInTime (cs : List Char) : Bool :=
  match date? cs with
  | some [] => true
  | some (delimiter :: rest) =>
    (delimiter == 'T' || delimiter == 't' || delimiter == ' ') && (clock? rest).any isOffset
  | none => clock? cs == some []

/-- Value of a word. A point in time becomes a table, with an entry that no structure names. -/
def wordValue? (cs : List Char) : Option Json :=
  match String.ofList cs with
  | "true" => some (.bool true)
  | "false" => some (.bool false)
  | word =>
    if isPointInTime cs then some (.object [("$datetime", .string word)])
    else ((integer? cs).map .int).or ((float? cs).map fun x => .number (.float x))

end AbstractSql.Toml
