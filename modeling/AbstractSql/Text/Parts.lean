/-!
# Statement parts

A statement is put together from parts, some of which may be empty. `Text.joinParts` trims every
part, drops the blank ones and separates the others by single spaces.
-/

namespace AbstractSql.Text

/-- The white space of Unicode: twenty-five code points. -/
def isBlank (c : Char) : Bool :=
  let code := c.toNat
  (0x09 ≤ code && code ≤ 0x0D) || code == 0x20 || code == 0x85 || code == 0xA0 || code == 0x1680
    || (0x2000 ≤ code && code ≤ 0x200A) || code == 0x2028 || code == 0x2029 || code == 0x202F
    || code == 0x205F || code == 0x3000

/-- Characters without the blanks at either end. -/
def trimCharacters (cs : List Char) : List Char :=
  ((cs.dropWhile isBlank).reverse.dropWhile isBlank).reverse

/-- Text without the blanks at either end. -/
def trim (text : String) : String := String.ofList (trimCharacters text.toList)

/-- The parts that are not blank, trimmed, with single spaces between them. -/
def joinParts (parts : List String) : String :=
  String.intercalate " " ((parts.map trim).filter fun part => part != "")

/-- Every occurrence of `pattern` replaced by `replacement`, from the left and without overlap.
The first argument counts the characters of a match that are still to be passed over. -/
def substituteCharacters (pattern replacement : List Char) : Nat → List Char → List Char
  | _, [] => []
  | skip + 1, _ :: rest => substituteCharacters pattern replacement skip rest
  | 0, c :: rest =>
    if pattern.isPrefixOf (c :: rest) then
      replacement ++ substituteCharacters pattern replacement (pattern.length - 1) rest
    else c :: substituteCharacters pattern replacement 0 rest

/-- A text with every occurrence of a non-empty pattern replaced. -/
def substitute (pattern replacement text : String) : String :=
  String.ofList (substituteCharacters pattern.toList replacement.toList 0 text.toList)

end AbstractSql.Text
