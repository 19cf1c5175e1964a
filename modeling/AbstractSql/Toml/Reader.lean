/-!
# Reading a text from the front

A reader takes a part off the front of the characters that are left, or refuses them. The readers
here are those that every part of a TOML document is put together from.
-/

namespace AbstractSql.Toml

/-- Takes a part off the front of the characters that are left, or refuses them. -/
abbrev Reader := StateT (List Char) Option

namespace Reader

/-- The next character, which is not taken; nothing at the end. -/
def peek : Reader (Option Char) := do return (← get).head?

/-- Take a character. -/
def next : Reader Char := do
  match ← get with
  | [] => failure
  | c :: rest =>
    set rest
    return c

/-- Take a given number of characters. -/
def take (count : Nat) : Reader (List Char) := do
  let cs ← get
  if cs.length < count then failure
  set (cs.drop count)
  return cs.take count

/-- Take characters as long as they belong to a class. -/
def takeWhile (belongs : Char → Bool) : Reader (List Char) := do
  let cs ← get
  set (cs.dropWhile belongs)
  return cs.takeWhile belongs

/-- Take a given text if it follows, and say whether it did. -/
def takeIf (text : String) : Reader Bool := do
  let cs ← get
  if text.toList.isPrefixOf cs then
    set (cs.drop text.length)
    return true
  return false

/-- Take a given text. -/
def exactly (text : String) : Reader Unit := do
  if !(← takeIf text) then failure

/-- Read items as long as `more` says that another one follows, at most `limit` of them. -/
def manyUpTo {α : Type} (more : Reader Bool) (item : Reader α) : (limit : Nat) → Reader (List α)
  | 0 => failure
  | limit + 1 => do
    if ← more then
      let first ← item
      return first :: (← manyUpTo more item limit)
    return []

/-- Read items as long as `more` says that another one follows. Where an item and what `more` takes
have a character at least, there are no more items than characters. -/
def many {α : Type} (more : Reader Bool) (item : Reader α) : Reader (List α) := do
  manyUpTo more item ((← get).length + 1)

/-- Read one item or more. -/
def someOf {α : Type} (more : Reader Bool) (item : Reader α) : Reader (List α) := do
  let first ← item
  return first :: (← many more item)

/-! ## White space and comments -/

/-- Whether a character is a space or a tab. -/
def isBlank (c : Char) : Bool := c == ' ' || c == '\t'

/-- Whether a character may stand in a comment or in a text: a tab, or no control character. -/
def isPlain (c : Char) : Bool := c == '\t' || (0x20 ≤ c.toNat && c.toNat != 0x7F)

/-- Take spaces and tabs. -/
def blanks : Reader Unit := discard (takeWhile isBlank)

/-- Take the end of a line if it follows, and say whether it did. -/
def newline : Reader Bool := do
  if ← takeIf "\n" then return true
  takeIf "\r\n"

/-- Take a comment if it follows, and say whether it did. -/
def comment : Reader Bool := do
  if !(← takeIf "#") then return false
  discard (takeWhile isPlain)
  return true

/-- Take the rest of a line that holds nothing more, up to the next line or the end. -/
def endOfLine : Reader Unit := do
  blanks
  discard comment
  if !(← newline) && (← peek).isSome then failure

/-- Whether what follows is the end of a line or a comment. -/
def atLineEnd : Reader Bool := do
  let c ← peek
  return c == some '#' || c == some '\n' || c == some '\r'

/-- Take lines that hold nothing, and the blanks in front of what follows them. -/
def blankLines : Reader Unit := do
  blanks
  discard (many atLineEnd (do endOfLine; blanks))

end Reader

end AbstractSql.Toml
