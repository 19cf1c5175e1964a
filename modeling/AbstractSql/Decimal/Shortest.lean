/-!
# Shortest decimals of binary fractions

A finite binary64 number stands for every real that rounds to it. Among the decimals in that
interval `Decimal.shortest` picks one with the fewest digits, and of those the nearest to the
number itself. All arithmetic is exact, on natural numbers.
-/

namespace AbstractSql.Decimal

/-- A positive number in units of `1 / denominator`, with the ends of the interval of reals that
round to it. -/
structure Rounding where
  /-- Lower end of the interval. -/
  low : Nat
  /-- The number itself. -/
  value : Nat
  /-- Upper end of the interval. -/
  high : Nat
  /-- The common unit is one over this. -/
  denominator : Nat
  /-- Whether the ends belong to the interval. -/
  closed : Bool

/-- A decimal `digits · 10 ^ exponent`. -/
structure Scaled where
  /-- All significant digits, as one natural number. -/
  digits : Nat
  /-- Power of ten that the digits count. -/
  exponent : Int
  deriving DecidableEq

/-- Whether `point / denominator` lies in the interval. -/
def Rounding.contains (r : Rounding) (point : Nat) : Bool :=
  if r.closed then r.low ≤ point && point ≤ r.high else r.low < point && point < r.high

/-- The interval with its unit divided by `factor`. -/
def Rounding.refine (r : Rounding) (factor : Nat) : Rounding :=
  { r with low := r.low * factor, value := r.value * factor, high := r.high * factor,
           denominator := r.denominator * factor }

/-- The interval with every number divided by `10 ^ exponent`. -/
def Rounding.scale (r : Rounding) (exponent : Int) : Rounding :=
  if 0 ≤ exponent then { r with denominator := r.denominator * Nat.pow 10 exponent.toNat }
  else
    let refined := r.refine (Nat.pow 10 (-exponent).toNat)
    { refined with denominator := r.denominator }

/-- The whole number in the interval that is nearest to the value, if there is one. Only the two
neighbours of the value can be; of two equally near ones the larger is taken. -/
def Rounding.nearestWhole (r : Rounding) : Option Nat :=
  let below := r.value / r.denominator
  let fitsBelow := r.contains (below * r.denominator)
  let fitsAbove := r.contains ((below + 1) * r.denominator)
  let nearerAbove := r.denominator ≤ 2 * (r.value - below * r.denominator)
  if fitsBelow && fitsAbove then some (if nearerAbove then below + 1 else below)
  else if fitsBelow then some below
  else if fitsAbove then some (below + 1)
  else none

/-- Search the decimal grids from `10 ^ exponent` towards finer ones, `steps` of them, for the
first that meets the interval. -/
def Rounding.coarsest (r : Rounding) : Nat → Int → Scaled
  | 0, exponent => ⟨r.value / r.denominator, exponent⟩
  | steps + 1, exponent =>
    match (r.scale exponent).nearestWhole with
    | some digits => ⟨digits, exponent⟩
    | none => r.coarsest steps (exponent - 1)

/-- The interval of `mantissa · 2 ^ exponent`. A power of two has its lower neighbour at half the
distance of the upper one. -/
def Rounding.ofBinary (mantissa : Nat) (exponent : Int) (isPower : Bool) : Rounding :=
  let quarters : Rounding :=
    { low := 4 * mantissa - (if isPower then 1 else 2)
      value := 4 * mantissa
      high := 4 * mantissa + 2
      denominator := 4
      closed := mantissa % 2 == 0 }
  if 0 ≤ exponent then
    let refined := quarters.refine (Nat.pow 2 exponent.toNat)
    { refined with denominator := quarters.denominator }
  else { quarters with denominator := 4 * Nat.pow 2 (-exponent).toNat }

/-- The shortest decimal that rounds to `mantissa · 2 ^ exponent`. The search starts two decimal
places above the leading digit and needs at most seventeen digits from there. -/
def shortest (mantissa : Nat) (exponent : Int) (isPower : Bool) : Scaled :=
  let leading := (((mantissa.log2 : Int) + exponent) * 30103) / 100000
  (Rounding.ofBinary mantissa exponent isPower).coarsest 24 (leading + 2)

/-- Positional text of a decimal: never an exponent, and no fraction when it is whole. -/
def Scaled.positional (d : Scaled) : String :=
  let digits := toString d.digits
  if 0 ≤ d.exponent then digits ++ String.ofList (List.replicate d.exponent.toNat '0')
  else
    let places := (-d.exponent).toNat
    if places < digits.length then
      String.ofList (digits.toList.take (digits.length - places)) ++ "."
        ++ String.ofList (digits.toList.drop (digits.length - places))
    else "0." ++ String.ofList (List.replicate (places - digits.length) '0') ++ digits

/-- Magnitude of a binary64 number from its exponent and fraction fields. -/
def magnitudeText (exponentField fraction : Nat) : String :=
  if exponentField == 0x7FF then (if fraction == 0 then "inf" else "NaN")
  else if exponentField == 0 then
    if fraction == 0 then "0" else (shortest fraction (-1074) false).positional
  else
    (shortest (fraction + Nat.pow 2 52) ((exponentField : Int) - 1075) (fraction == 0)).positional

/-- Text of a binary64 number: the shortest decimal that reads back to it, written positionally,
with the sign of zero kept and no sign on a number that is not one. -/
def text (x : Float) : String :=
  let bits := x.toBits.toNat
  let exponentField := bits / Nat.pow 2 52 % Nat.pow 2 11
  let fraction := bits % Nat.pow 2 52
  let magnitude := magnitudeText exponentField fraction
  if bits / Nat.pow 2 63 == 1 && magnitude != "NaN" then "-" ++ magnitude else magnitude

end AbstractSql.Decimal
