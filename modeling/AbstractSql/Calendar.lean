/-!
# Points in civil time

A date of the proleptic Gregorian calendar with a time of day to the nanosecond. A leap second is
written as second 59 with a thousand million nanoseconds or more; both texts show it as second 60.
-/

namespace AbstractSql

namespace Calendar

/-- Whether a year has a 29th of February. -/
def isLeapYear (year : Int) : Bool :=
  year % 4 == 0 && (year % 100 != 0 || year % 400 == 0)

/-- Number of days of a month, zero for a number that is no month. -/
def daysInMonth (year : Int) (month : Nat) : Nat :=
  match month with
  | 1 | 3 | 5 | 7 | 8 | 10 | 12 => 31
  | 4 | 6 | 9 | 11 => 30
  | 2 => if isLeapYear year then 29 else 28
  | _ => 0

/-- Whether the seven numbers name a point in time. -/
def isMoment (year : Int) (month day hour minute second nanosecond : Nat) : Bool :=
  -262143 ≤ year && year ≤ 262142 && 1 ≤ day && day ≤ daysInMonth year month
    && hour < 24 && minute < 60 && second < 60
    && (nanosecond < 1000000000 || (second == 59 && nanosecond < 2000000000))

end Calendar

/-- A point in civil time. -/
structure DateTime where
  /-- Year, with 0 for the year before year 1. -/
  year : Int
  /-- Month, from 1. -/
  month : Nat
  /-- Day of the month, from 1. -/
  day : Nat
  /-- Hour of the day. -/
  hour : Nat
  /-- Minute of the hour. -/
  minute : Nat
  /-- Second of the minute, never more than 59. -/
  second : Nat
  /-- Nanosecond, a thousand million or more in a leap second. -/
  nanosecond : Nat
  /-- The numbers name a point in time. -/
  isMoment : Calendar.isMoment year month day hour minute second nanosecond = true
  deriving DecidableEq

namespace DateTime

/-- The point in time that seven numbers name, if they name one. -/
def ofNumbers? (year : Int) (month day hour minute second nanosecond : Nat) : Option DateTime :=
  if h : Calendar.isMoment year month day hour minute second nanosecond = true then
    some ⟨year, month, day, hour, minute, second, nanosecond, h⟩
  else none

/-- A number with at least `width` digits. -/
def padded (width n : Nat) : String :=
  let digits := toString n
  String.ofList (List.replicate (width - digits.length) '0') ++ digits

/-- Years 0 to 9999 take four digits; all others take a sign before theirs. -/
def yearText (year : Int) : String :=
  if 0 ≤ year ∧ year < 10000 then padded 4 year.toNat
  else (if year < 0 then "-" else "+") ++ padded 4 year.natAbs

/-- Year, month and day with hyphens. -/
def dateText (t : DateTime) : String :=
  yearText t.year ++ "-" ++ padded 2 t.month ++ "-" ++ padded 2 t.day

/-- Hour, minute and second with colons. -/
def clockText (t : DateTime) : String :=
  padded 2 t.hour ++ ":" ++ padded 2 t.minute ++ ":"
    ++ padded 2 (t.second + t.nanosecond / 1000000000)

/-- Fraction of a second with the fewest of three, six or nine digits, nothing when it is zero. -/
def fractionText (t : DateTime) : String :=
  let nanosecond := t.nanosecond % 1000000000
  if nanosecond == 0 then ""
  else if nanosecond % 1000000 == 0 then "." ++ padded 3 (nanosecond / 1000000)
  else if nanosecond % 1000 == 0 then "." ++ padded 6 (nanosecond / 1000)
  else "." ++ padded 9 nanosecond

/-- Date and clock with a space between, to the second. -/
def spaced (t : DateTime) : String := t.dateText ++ " " ++ t.clockText

/-- Date and clock with a `T` between and the fraction of the second after them. -/
def iso (t : DateTime) : String := t.dateText ++ "T" ++ t.clockText ++ t.fractionText

end DateTime

end AbstractSql
