import AbstractSql.Decimal.Shortest

/-!
# Reading decimals

`Decimal.read?` takes the text of a number, finite or not, to the nearest binary64 number. It reads
what `Decimal.text` writes, and also signs, exponents and either part of a fraction alone.
-/

namespace AbstractSql.Decimal

/-- Number that decimal digits write. -/
def ofDigits (digits : List Char) : Nat :=
  digits.foldl (fun n c => n * 10 + (c.toNat - '0'.toNat)) 0

/-- An optional sign in front of characters; true for a minus. -/
def splitSign : List Char → Bool × List Char
  | '-' :: rest => (true, rest)
  | '+' :: rest => (false, rest)
  | rest => (false, rest)

/-- Exponent up to the end; zero when none is written. -/
def readExponent? : List Char → Option Int
  | [] => some 0
  | c :: rest =>
    let signed := splitSign rest
    if (c == 'e' || c == 'E') && !signed.2.isEmpty && signed.2.all Char.isDigit then
      let magnitude : Int := ofDigits signed.2
      some (if signed.1 then -magnitude else magnitude)
    else none

/-- The binary64 number nearest to `n · 10 ^ exponent`. Far outside the range of the finite numbers
the power is not computed. -/
def nearest (n : Nat) (exponent : Int) : Float :=
  let size : Int := (toString n).length
  if n == 0 then 0.0
  else if 400 < size + exponent then 1.0 / 0.0
  else if size + exponent < -400 then 0.0
  else if 0 ≤ exponent then Float.ofScientific n false exponent.toNat
  else Float.ofScientific n true (-exponent).toNat

/-- Magnitude that characters write. -/
def readMagnitude? (cs : List Char) : Option Float :=
  match (String.ofList cs).toLower with
  | "inf" | "infinity" => some (1.0 / 0.0)
  | "nan" => some (0.0 / 0.0)
  | _ =>
    let whole := cs.takeWhile Char.isDigit
    let tail := cs.dropWhile Char.isDigit
    let fraction :=
      match tail with
      | '.' :: rest => rest.takeWhile Char.isDigit
      | _ => []
    let rest :=
      match tail with
      | '.' :: rest => rest.dropWhile Char.isDigit
      | rest => rest
    if whole.isEmpty && fraction.isEmpty then none
    else
      (readExponent? rest).map fun exponent =>
        nearest (ofDigits (whole ++ fraction)) (exponent - fraction.length)

/-- Number that a text writes. -/
def read? (text : String) : Option Float :=
  let signed := splitSign text.toList
  (readMagnitude? signed.2).map fun x => if signed.1 then -x else x

end AbstractSql.Decimal
