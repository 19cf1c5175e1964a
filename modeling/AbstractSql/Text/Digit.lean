/-!
# Digits of a base

`Text.digitValue?` reads one digit of a base up to sixteen, `Text.ofDigits?` a whole number.
-/

namespace AbstractSql.Text

/-- Value of a digit of a base up to sixteen; letters count in either case. -/
def digitValue? (base : Nat) (c : Char) : Option Nat :=
  let value :=
    if '0' ≤ c && c ≤ '9' then c.toNat - '0'.toNat
    else if 'a' ≤ c && c ≤ 'f' then c.toNat - 'a'.toNat + 10
    else if 'A' ≤ c && c ≤ 'F' then c.toNat - 'A'.toNat + 10
    else base
  if value < base then some value else none

/-- Number that digits of a base write after the ones that wrote `n`. -/
def appendDigits? (base : Nat) : Nat → List Char → Option Nat
  | n, [] => some n
  | n, c :: rest => (digitValue? base c).bind fun d => appendDigits? base (n * base + d) rest

/-- Number that one digit or more of a base write. -/
def ofDigits? (base : Nat) : List Char → Option Nat
  | [] => none
  | digits => appendDigits? base 0 digits

end AbstractSql.Text
