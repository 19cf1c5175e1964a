import AbstractSql.Toml.Quoted
import AbstractSql.Toml.Scalar
import AbstractSql.Toml.Table

/-!
# TOML documents

`Toml.ofText?` reads a document of TOML 1.0 as the tree that JSON values have. Values nest to a
limited depth, and so do dotted keys. Keys without quotes are made of ASCII letters, digits,
underscores and hyphens.
-/

namespace AbstractSql.Toml

open Reader

/-- Arrays and inline tables nest less deep than this, and a dotted key has fewer parts. -/
def depthLimit : Nat := 80

/-- Whether a character may stand in a key without quotes. -/
def isBareCharacter (c : Char) : Bool := c.isAlphanum || c == '_' || c == '-'

/-- Read a part of a dotted key with the blanks around it. -/
def keyPart : Reader String := do
  blanks
  let part ← match ← peek with
    | some '\x22' => quotedLine .basic
    | some '\x27' => quotedLine .literal
    | _ => do
      let characters ← takeWhile isBareCharacter
      if characters.isEmpty then failure
      pure (String.ofList characters)
  blanks
  return part

/-- Read a dotted key. -/
def key : Reader Key := do
  let parts ← someOf (takeIf ".") keyPart
  if depthLimit ≤ parts.length then failure
  match parts.reverse with
  | [] => failure
  | name :: path => return { path := path.reverse, name }

/-- Read a key, an equals sign, and a value with the blanks in front of it. -/
def assignment (value : Reader Json) : Reader (Key × Json) := do
  let key ← key
  exactly "="
  blanks
  return (key, ← value)

/-- Read a word. A time of day may follow a date after a single space. -/
def word : Reader (List Char) := do
  let first ← takeWhile isWordCharacter
  match date? first, ← get with
  | some [], ' ' :: c :: _ =>
    if c.isDigit then
      discard next
      return first ++ ' ' :: (← takeWhile isWordCharacter)
    else return first
  | _, _ => return first

/-- Read a value without parts. -/
def scalar : Reader Json := do
  match ← peek with
  | some '\x22' => return .string (← quoted .basic)
  | some '\x27' => return .string (← quoted .literal)
  | _ =>
    let some json := wordValue? (← word) | failure
    return json

/-- Read an array. Its items may stand on lines of their own, and a comma may follow the last. -/
def array (item : Reader Json) : Reader Json := do
  exactly "["
  blankLines
  let more : Reader Bool := do return (← peek) != some ']'
  let items ← many more do
    let value ← item
    blankLines
    if ← takeIf "," then blankLines
    else if ← more then failure
    return value
  exactly "]"
  return .array items

/-- Read an inline table, which stands on one line. -/
def inlineTable (value : Reader Json) : Reader Json := do
  exactly "\x7b"
  blanks
  if ← takeIf "\x7d" then return .object []
  let entries ← someOf (takeIf ",") do
    let entry ← assignment value
    blanks
    return entry
  exactly "\x7d"
  let some table := entries.foldlM (fun table (key, value) => Entries.enter key value table) []
    | failure
  return Entries.toJson table

/-- Read a value in which arrays and inline tables nest at most `depth` deep. -/
def value : (depth : Nat) → Reader Json
  | 0 => scalar
  | depth + 1 => do
    match ← peek with
    | some '[' => array (value depth)
    | some '\x7b' => inlineTable (value depth)
    | _ => scalar

/-- Read a line that is not blank. -/
def line : Reader Line := do
  let line ←
    if ← takeIf "[[" then do
      let key ← key
      exactly "]]"
      pure (Line.element key)
    else if ← takeIf "[" then do
      let key ← key
      exactly "]"
      pure (Line.table key)
    else do
      let (key, value) ← assignment (value (depthLimit - 1))
      pure (Line.entry key value)
  endOfLine
  return line

/-- Read the lines of a document up to the end. -/
def lines : Reader (List Line) := do
  discard (takeIf "\ufeff")
  blankLines
  many (do return (← peek).isSome) do
    let line ← line
    blankLines
    return line

/-- The table that a document is, as a tree. -/
def ofText? (text : String) : Option Json := do
  let (lines, _) ← lines text.toList
  let document ← lines.foldlM Document.add {}
  return document.entries.toJson

end AbstractSql.Toml
