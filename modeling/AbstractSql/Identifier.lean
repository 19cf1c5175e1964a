/-!
# Identifiers

Names of tables and columns stand between backticks, with a backtick inside a name written twice.
-/

namespace AbstractSql.Identifier

/-- Characters with every backtick doubled. -/
def escape : List Char → List Char
  | [] => []
  | c :: rest => if c = '\x60' then '\x60' :: '\x60' :: escape rest else c :: escape rest

/-- A name between backticks. -/
def quote (name : String) : String := String.ofList ('\x60' :: escape name.toList ++ ['\x60'])

/-- A column behind a table alias and a point, also when the alias is empty. -/
def under (tableAlias column : String) : String := tableAlias ++ "." ++ quote column

/-- A column under a table alias; no alias, no point. -/
def qualify (tableAlias column : String) : String :=
  if tableAlias.isEmpty then quote column else under tableAlias column

/-- The mark that a parameter leaves in a statement. -/
def placeholder (name : String) : String := "?" ++ name

end AbstractSql.Identifier
