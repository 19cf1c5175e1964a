import AbstractSql.Json.Number
import AbstractSql.Text.Digit

/-!
# Reading JSON texts

The characters of a text are gathered into tokens, and the tokens are put together on a stack of
open arrays and objects. Both passes are folds over their input. A text holds exactly one value.
What is well formed is read to the end, but three things stand for no value: a text with half of a
pair of code units, a number beyond all finite numbers, and an array or object more than 127 deep.
-/

namespace AbstractSql

/-- A token of a JSON text. -/
inductive JsonToken where
  /-- Start of an array. -/
  | openArray
  /-- End of an array. -/
  | closeArray
  /-- Start of an object. -/
  | openObject
  /-- End of an object. -/
  | closeObject
  /-- Separator of values. -/
  | comma
  /-- Separator of a key and its value. -/
  | colon
  /-- A text, unless it is unreadable. -/
  | text (text : Option String)
  /-- Any other value without parts. -/
  | scalar (value : Json)
  deriving Inhabited

/-- Where the reader of characters stands. The code points of a text are kept with the last one
first, and halves of pairs among them. -/
inductive JsonLexing where
  /-- Between tokens. -/
  | between
  /-- In a word or a number, with its characters so far, the last one first. -/
  | word (letters : List Char)
  /-- In a text. -/
  | text (codes : List Nat)
  /-- In a text after a backslash. -/
  | escape (codes : List Nat)
  /-- In a text, in the digits of a code unit: how many are missing, and the number so far. -/
  | unit (codes : List Nat) (missing value : Nat)
  deriving Inhabited

namespace JsonLexing

/-- White space between tokens. -/
def isSpace (c : Char) : Bool := c == ' ' || c == '\n' || c == '\t' || c == '\r'

/-- Token of a single character. -/
def punctuation? : Char → Option JsonToken
  | '[' => some .openArray
  | ']' => some .closeArray
  | '\x7b' => some .openObject
  | '\x7d' => some .closeObject
  | ',' => some .comma
  | ':' => some .colon
  | _ => none

/-- Value of a word or a number. -/
def wordValue? (letters : List Char) : Option Json :=
  match String.ofList letters with
  | "null" => some .null
  | "true" => some (.bool true)
  | "false" => some (.bool false)
  | _ =>
    (NumberLiteral.read letters).map fun literal =>
      match literal.toNumber? with
      | some n => .number n
      | none => .unreadable

/-- Character that a single letter after a backslash stands for. -/
def escaped? : Char → Option Char
  | '\x22' => some '\x22'
  | '\\' => some '\\'
  | '/' => some '/'
  | 'b' => some '\x08'
  | 'f' => some '\x0c'
  | 'n' => some '\n'
  | 'r' => some '\r'
  | 't' => some '\t'
  | _ => none

/-- Whether a code is the first half of a pair. -/
def isHigh (code : Nat) : Bool := 0xD800 ≤ code && code ≤ 0xDBFF

/-- Whether a code is the second half of a pair. -/
def isLow (code : Nat) : Bool := 0xDC00 ≤ code && code ≤ 0xDFFF

/-- Characters of code points, the last one first, in front of `rest`. The halves of a pair only
count together. -/
def characters? : List Nat → List Char → Option (List Char)
  | [], rest => some rest
  | [code], rest => if isHigh code || isLow code then none else some (Char.ofNat code :: rest)
  | code :: before :: codes, rest =>
    if isLow code && isHigh before then
      characters? codes
        (Char.ofNat (0x10000 + (before - 0xD800) * 0x400 + (code - 0xDC00)) :: rest)
    else if isHigh code || isLow code then none
    else characters? (before :: codes) (Char.ofNat code :: rest)

/-- Token of a text. -/
def textToken (codes : List Nat) : JsonToken := .text ((characters? codes []).map String.ofList)

/-- Tokens that are complete when the present one ends. -/
def finish : JsonLexing → Option (List JsonToken)
  | between => some []
  | word letters => (wordValue? letters.reverse).map fun value => [.scalar value]
  | _ => none

/-- Take in a character outside texts. -/
def stepOutside (state : JsonLexing) (c : Char) : Option (JsonLexing × List JsonToken) :=
  if isSpace c then state.finish.map fun tokens => (between, tokens)
  else if c == '\x22' then state.finish.map fun tokens => (text [], tokens)
  else
    match punctuation? c with
    | some token => state.finish.map fun tokens => (between, tokens ++ [token])
    | none =>
      match state with
      | word letters => some (word (c :: letters), [])
      | _ => some (word [c], [])

/-- Take in a character, with the tokens that it completes. -/
def step (state : JsonLexing) (c : Char) : Option (JsonLexing × List JsonToken) :=
  match state with
  | text codes =>
    if c == '\x22' then some (between, [textToken codes])
    else if c == '\\' then some (escape codes, [])
    else if c.toNat < 0x20 then none
    else some (text (c.toNat :: codes), [])
  | escape codes =>
    if c == 'u' then some (unit codes 4 0, [])
    else (escaped? c).map fun d => (text (d.toNat :: codes), [])
  | unit codes missing value => do
    let digit ← Text.digitValue? 16 c
    let value := value * 16 + digit
    if missing ≤ 1 then some (text (value :: codes), [])
    else some (unit codes (missing - 1) value, [])
  | state => state.stepOutside c

/-- The tokens of a text. -/
def tokens (cs : List Char) : Option (List JsonToken) := do
  let read ← cs.foldlM (fun read c => do
    let next ← read.1.step c
    return (next.1, next.2.reverse ++ read.2)) (between, ([] : List JsonToken))
  let last ← read.1.finish
  return read.2.reverse ++ last

end JsonLexing

/-- An array or an object that is not closed yet. A key is missing where it is unreadable. -/
inductive JsonFrame where
  /-- An array with its members so far, the last one first. -/
  | array (items : List Json)
  /-- An object with its members so far, the last one first. -/
  | object (members : List (Option String × Json))
  /-- An object with its members so far and the key of the next one. -/
  | member (members : List (Option String × Json)) (key : Option String)
  deriving Inhabited

/-- What the next token has to be. -/
inductive JsonExpectation where
  /-- A value. -/
  | value
  /-- The first value of an array, or its end. -/
  | firstItem
  /-- The first key of an object, or its end. -/
  | firstKey
  /-- A key. -/
  | key
  /-- A colon. -/
  | colon
  /-- A comma or the end of what is open. -/
  | separator
  /-- Nothing: the value is complete. -/
  | nothing (value : Json)
  deriving Inhabited

/-- Arrays and objects that are open, the innermost first, and what has to follow. -/
structure JsonBuilding where
  /-- What is open. -/
  frames : List JsonFrame := []
  /-- What has to follow. -/
  expects : JsonExpectation := .value
  deriving Inhabited

namespace JsonBuilding

/-- Deepest nesting of arrays and objects. -/
def deepest : Nat := 127

/-- Take in a complete value. -/
def complete (frames : List JsonFrame) (value : Json) : Option JsonBuilding :=
  match frames with
  | [] => some ⟨[], .nothing value⟩
  | .array items :: rest => some ⟨.array (value :: items) :: rest, .separator⟩
  | .member members key :: rest => some ⟨.object ((key, value) :: members) :: rest, .separator⟩
  | .object _ :: _ => none

/-- Take in a token where a value may stand. -/
def stepValue (frames : List JsonFrame) : JsonToken → Option JsonBuilding
  | .text (some text) => complete frames (.string text)
  | .text none => complete frames .unreadable
  | .scalar value => complete frames value
  | .openArray => some ⟨.array [] :: frames, .firstItem⟩
  | .openObject => some ⟨.object [] :: frames, .firstKey⟩
  | _ => none

/-- Take in a key. -/
def stepKey (frames : List JsonFrame) : JsonToken → Option JsonBuilding
  | .text key =>
    match frames with
    | .object members :: rest => some ⟨.member members key :: rest, .colon⟩
    | _ => none
  | _ => none

/-- What is closed as a value: nothing readable when too many frames are around it. -/
def closed (around : List JsonFrame) (value : Json) : Json :=
  if (around.drop (deepest - 1)).isEmpty then value else .unreadable

/-- The object of some members; nothing readable when a key is missing. -/
def objectOf (members : List (Option String × Json)) : Json :=
  match members.mapM fun member => member.1.map fun key => (key, member.2) with
  | some members => .object members
  | none => .unreadable

/-- Close what is open. -/
def close (frames : List JsonFrame) : JsonToken → Option JsonBuilding
  | .closeArray =>
    match frames with
    | .array items :: rest => complete rest (closed rest (.array items.reverse))
    | _ => none
  | .closeObject =>
    match frames with
    | .object members :: rest => complete rest (closed rest (objectOf members.reverse))
    | _ => none
  | _ => none

/-- Take in a token. -/
def step (state : JsonBuilding) (token : JsonToken) : Option JsonBuilding :=
  match state.expects, token with
  | .value, token => stepValue state.frames token
  | .firstItem, .closeArray => close state.frames .closeArray
  | .firstItem, token => stepValue state.frames token
  | .firstKey, .closeObject => close state.frames .closeObject
  | .firstKey, token => stepKey state.frames token
  | .key, token => stepKey state.frames token
  | .colon, .colon => some { state with expects := .value }
  | .separator, .comma =>
    match state.frames with
    | .array _ :: _ => some { state with expects := .value }
    | .object _ :: _ => some { state with expects := .key }
    | _ => none
  | .separator, token => close state.frames token
  | _, _ => none

end JsonBuilding

/-- The value of a JSON text, which may have unreadable parts. -/
def Json.ofText? (text : String) : Option Json := do
  let tokens ← JsonLexing.tokens text.toList
  let built ← tokens.foldlM JsonBuilding.step {}
  match built.expects with
  | .nothing value => some value
  | _ => none

end AbstractSql
