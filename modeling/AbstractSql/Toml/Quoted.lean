import AbstractSql.Text.Digit
import AbstractSql.Toml.Reader

/-!
# Quoted texts of TOML

A text stands between quotes, or between three quotes when it takes several lines. Between
quotation marks a backslash escapes; between apostrophes every character stands for itself. In a
text of several lines every line ends in a single line feed, and one or two quotes may stand in
front of the three that end it.
-/

namespace AbstractSql.Toml

open Reader

/-- A kind of quotes. -/
structure Quotes where
  /-- The quote. -/
  mark : Char
  /-- Whether a backslash escapes what follows. -/
  escapes : Bool

namespace Quotes

/-- Quotation marks. -/
def basic : Quotes := ⟨'\x22', true⟩

/-- Apostrophes. -/
def literal : Quotes := ⟨'\x27', false⟩

/-- Whether a character stands for itself between the quotes. -/
def isOrdinary (q : Quotes) (c : Char) : Bool :=
  isPlain c && c != q.mark && !(q.escapes && c == '\\')

/-- Three quotes. -/
def three (q : Quotes) : String := String.ofList [q.mark, q.mark, q.mark]

end Quotes

/-- Read the character whose code is written with the given number of hexadecimal digits. -/
def codePoint (digits : Nat) : Reader Char := do
  let some code := Text.ofDigits? 16 (← take digits) | failure
  if code.isValidChar then return Char.ofNat code else failure

/-- Read what a backslash escapes. -/
def escape : Reader Char := do
  match ← next with
  | 'b' => return '\x08'
  | 't' => return '\t'
  | 'n' => return '\n'
  | 'f' => return '\x0c'
  | 'r' => return '\r'
  | '\x22' => return '\x22'
  | '\\' => return '\\'
  | 'u' => codePoint 4
  | 'U' => codePoint 8
  | _ => failure

/-- Read a part of a text on one line, which is not the closing quote. -/
def linePart (q : Quotes) : Reader (List Char) := do
  if q.escapes && (← peek) == some '\\' then
    discard next
    return [← escape]
  match ← takeWhile q.isOrdinary with
  | [] => failure
  | characters => return characters

/-- Read a text on one line. -/
def quotedLine (q : Quotes) : Reader String := do
  exactly (String.singleton q.mark)
  let parts ← many (do return (← peek) != some q.mark) (linePart q)
  exactly (String.singleton q.mark)
  return String.ofList parts.flatten

/-- Take an escaped end of a line with the blanks and line ends around it, which stand for
nothing. -/
def joinedLines : Reader (List Char) := do
  blanks
  if !(← newline) then failure
  blanks
  discard (many newline blanks)
  return []

/-- Read a part of a text of several lines, which is not what closes it. -/
def blockPart (q : Quotes) : Reader (List Char) := do
  if ← newline then return ['\n']
  match ← peek with
  | none => failure
  | some c =>
    if c == q.mark then takeWhile (· == q.mark)
    else if q.escapes && c == '\\' then
      discard next
      match ← peek with
      | some ' ' | some '\t' | some '\n' | some '\r' => joinedLines
      | _ => return [← escape]
    else linePart q

/-- Number of quotes that follow. -/
def quotesAhead (q : Quotes) : Reader Nat := do
  return ((← get).takeWhile (· == q.mark)).length

/-- Read a text of several lines. A line end right after the opening quotes does not belong to the
text. -/
def quotedBlock (q : Quotes) : Reader String := do
  exactly q.three
  discard newline
  let parts ← many (do return (← quotesAhead q) < 3) (blockPart q)
  let extra := (← quotesAhead q) - 3
  if 2 < extra then failure
  let last ← take extra
  exactly q.three
  return String.ofList (parts.flatten ++ last)

/-- Read a text of either extent. -/
def quoted (q : Quotes) : Reader String := do
  if q.three.toList.isPrefixOf (← get) then quotedBlock q else quotedLine q

end AbstractSql.Toml
