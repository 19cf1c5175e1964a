import AbstractSql.Json

/-!
# Numbers of a JSON text

The literal of a number is split into its sign, its digits and its exponent. An integer of 64 bits
is exact. Every other number is the binary64 number nearest to its leading digits, as many as fit
into 64 bits, multiplied or divided by a power of ten; a result beyond all finite numbers is
refused.
-/

namespace AbstractSql

/-- The parts of a number literal. -/
structure NumberLiteral where
  /-- Whether a minus sign stands in front. -/
  negative : Bool
  /-- Digits in front of the point. -/
  whole : List Nat
  /-- Digits after the point; none without a point. -/
  fraction : List Nat
  /-- The exponent, if one is written. -/
  exponent : Option Int
  deriving DecidableEq

namespace NumberLiteral

/-- Value of a decimal digit. -/
def digit (c : Char) : Nat := c.toNat - '0'.toNat

/-- Leading digits of some characters, with what follows them. -/
def spanDigits (cs : List Char) : List Nat × List Char :=
  ((cs.takeWhile Char.isDigit).map digit, cs.dropWhile Char.isDigit)

/-- Number that digits write. -/
def ofDigits (digits : List Nat) : Nat := digits.foldl (fun n d => n * 10 + d) 0

/-- Read an exponent up to the end. -/
def readExponent : List Char → Option (Option Int)
  | [] => some none
  | c :: rest =>
    if c == 'e' || c == 'E' then
      let signed :=
        match rest with
        | '+' :: digits => (false, digits)
        | '-' :: digits => (true, digits)
        | digits => (false, digits)
      let digits := spanDigits signed.2
      if digits.1.isEmpty || !digits.2.isEmpty then none
      else
        let magnitude : Int := ofDigits digits.1
        some (some (if signed.1 then -magnitude else magnitude))
    else none

/-- Read a fraction and an exponent up to the end. -/
def readTail : List Char → Option (List Nat × Option Int)
  | '.' :: rest =>
    let digits := spanDigits rest
    if digits.1.isEmpty then none
    else (readExponent digits.2).map fun exponent => (digits.1, exponent)
  | rest => (readExponent rest).map fun exponent => ([], exponent)

/-- The parts of a literal. A leading zero stands alone in front of the point. -/
def read (cs : List Char) : Option NumberLiteral := do
  let negative := cs.head? == some '-'
  let digits := spanDigits (if negative then cs.tail else cs)
  if digits.1.isEmpty || (digits.1.head? == some 0 && digits.1.length != 1) then none
  else
    let tail ← readTail digits.2
    return { negative, whole := digits.1, fraction := tail.1, exponent := tail.2 }

/-- Append digits to a number as long as the result has 64 bits; what is left is returned too. -/
def appendDigits (n : Nat) : List Nat → Nat × List Nat
  | [] => (n, [])
  | d :: rest => if n * 10 + d < UInt64.size then appendDigits (n * 10 + d) rest else (n, d :: rest)

/-- A power of ten as a binary64 number. -/
def powerOfTen (n : Nat) : Float := Float.ofScientific 1 false n

/-- A number multiplied by a power of ten, if the result is finite. Powers with more than 308 zeros
are taken in steps, and two such steps leave nothing of a number of 64 bits. -/
def scale (x : Float) (exponent : Int) : Option Float :=
  if 308 < exponent then (if x == 0.0 then some x else none)
  else if 0 ≤ exponent then
    let scaled := x * powerOfTen exponent.toNat
    if scaled.isInf then none else some scaled
  else if -308 ≤ exponent then some (x / powerOfTen (-exponent).toNat)
  else if -616 ≤ exponent then some (x / powerOfTen 308 / powerOfTen (-exponent - 308).toNat)
  else some 0.0

/-- The binary64 number of a literal, if it is finite. -/
def toFloat? (literal : NumberLiteral) : Option Float :=
  let whole := appendDigits 0 literal.whole
  let all := appendDigits whole.1 literal.fraction
  let kept := literal.fraction.length - all.2.length
  let exponent := (whole.2.length : Int) - kept + literal.exponent.getD 0
  (scale all.1.toUInt64.toFloat exponent).map fun x => if literal.negative then -x else x

/-- The number of a literal. Minus zero is no integer. -/
def toNumber? (literal : NumberLiteral) : Option JsonNumber :=
  let n := ofDigits literal.whole
  if literal.fraction.isEmpty && literal.exponent.isNone then
    if literal.negative then
      if 0 < n && Int64.minValue.toInt ≤ -(n : Int) then some (.negative (Int64.ofInt (-n)))
      else literal.toFloat?.map .float
    else if n < UInt64.size then some (.unsigned n.toUInt64)
    else literal.toFloat?.map .float
  else literal.toFloat?.map .float

end NumberLiteral

end AbstractSql
