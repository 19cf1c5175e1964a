import AbstractSql.Failure
import AbstractSql.Text.Alphanumeric

/-!
# Statement text as segments

A statement is read from left to right into literal runs and named placeholders. Texts between
single or double quotes and names between backticks are literal, whatever they hold; a question
mark outside them starts a placeholder when a letter, a digit or an underscore follows.
-/

namespace AbstractSql

/-- A piece of statement text. -/
inductive Segment where
  /-- Text that stays as it is. -/
  | sql (text : String)
  /-- A placeholder, by its name without the mark. -/
  | placeholder (name : String)
  deriving DecidableEq, Inhabited

namespace Segment

/-- Characters of a placeholder name. -/
def isNameCharacter (c : Char) : Bool := c == '_' || Text.isAlphanumeric c

/-- Characters that open a literal: a single quote, a double quote and a backtick. -/
def isQuote (c : Char) : Bool := c == '\x27' || c == '\x22' || c == '\x60'

/-- Characters of a run that holds neither a literal nor a placeholder. -/
def isPlain (c : Char) : Bool := !(isQuote c || c == '?')

/-- Whether a backslash inside the literal takes the next character with it. Names between
backticks have no such escape. -/
def hasEscapes (quote : Char) : Bool := quote != '\x60'

/-- Read the rest of a literal up to and with its closing quote, and return it with what follows.
A doubled quote belongs to the literal. Nothing is returned when the literal is never closed. -/
def readLiteral (quote : Char) : List Char → Option (List Char × List Char)
  | [] => none
  | [c] => if c = quote then some ([c], []) else none
  | c :: d :: rest =>
    if c = quote then
      if d = quote then (readLiteral quote rest).map fun r => (c :: d :: r.1, r.2)
      else some ([c], d :: rest)
    else if hasEscapes quote && c == '\\' then
      (readLiteral quote rest).map fun r => (c :: d :: r.1, r.2)
    else (readLiteral quote (d :: rest)).map fun r => (c :: r.1, r.2)

/-- A literal and what follows it are all that was read. -/
theorem readLiteral_append {quote : Char} {cs literal rest : List Char}
    (h : readLiteral quote cs = some (literal, rest)) : literal ++ rest = cs := by
  fun_induction readLiteral quote cs generalizing literal rest with
  | case1 => simp at h
  | case2 => simp only [Option.some.injEq, Prod.mk.injEq] at h; simp [← h.1, ← h.2]
  | case3 => simp at h
  | case4 tail ih =>
    obtain ⟨⟨body, after⟩, hr, he⟩ := Option.map_eq_some_iff.1 h
    simp only [Prod.mk.injEq] at he
    simp [← he.1, ← he.2, ih hr]
  | case5 => simp only [Option.some.injEq, Prod.mk.injEq] at h; simp [← h.1, ← h.2]
  | case6 c d tail hc he ih =>
    obtain ⟨⟨body, after⟩, hr, he⟩ := Option.map_eq_some_iff.1 h
    simp only [Prod.mk.injEq] at he
    simp [← he.1, ← he.2, ih hr]
  | case7 c d tail hc he ih =>
    obtain ⟨⟨body, after⟩, hr, he⟩ := Option.map_eq_some_iff.1 h
    simp only [Prod.mk.injEq] at he
    simp [← he.1, ← he.2, ih hr]

/-- What follows a literal is no longer than what was read. -/
theorem length_rest_le {quote : Char} {cs literal rest : List Char}
    (h : readLiteral quote cs = some (literal, rest)) : rest.length ≤ cs.length := by
  simp [← readLiteral_append h]

/-- The segments up to the end of the text, or up to a literal that is never closed; what is left
then starts with the quote that opens it. -/
def scanCharacters (cs : List Char) : List Segment × List Char :=
  match cs with
  | [] => ([], [])
  | c :: rest =>
    if c = '?' then
      let name := rest.takeWhile isNameCharacter
      if name.isEmpty then
        let scanned := scanCharacters rest
        (.sql "?" :: scanned.1, scanned.2)
      else
        let scanned := scanCharacters (rest.dropWhile isNameCharacter)
        (.placeholder (String.ofList name) :: scanned.1, scanned.2)
    else if isQuote c then
      match _h : readLiteral c rest with
      | none => ([], cs)
      | some (literal, after) =>
        let scanned := scanCharacters after
        (.sql (String.ofList (c :: literal)) :: scanned.1, scanned.2)
    else
      let scanned := scanCharacters (rest.dropWhile isPlain)
      (.sql (String.ofList (c :: rest.takeWhile isPlain)) :: scanned.1, scanned.2)
termination_by cs.length
decreasing_by
  · simp
  · exact Nat.lt_succ_of_le (List.dropWhile_suffix _).sublist.length_le
  · exact Nat.lt_succ_of_le (length_rest_le _h)
  · exact Nat.lt_succ_of_le (List.dropWhile_suffix _).sublist.length_le

/-- The segments of a statement. -/
def scan (text : String) : Except Failure (List Segment) :=
  match scanCharacters text.toList with
  | (segments, []) => .ok segments
  | (_, rest) =>
    let byte := text.utf8ByteSize - (String.ofList rest).utf8ByteSize
    .error (.execution (.unterminatedLiteral byte))

/-- The name of a placeholder. -/
def name? : Segment → Option String
  | sql _ => none
  | placeholder name => some name

/-- The names of the placeholders of a statement in order, with repeats. -/
def placeholders (text : String) : Except Failure (List String) :=
  (scan text).map fun segments => segments.filterMap name?

end Segment

end AbstractSql
