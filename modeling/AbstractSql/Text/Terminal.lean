/-!
# Text for terminals

A text may hold sequences of characters that steer a terminal instead of showing something.
`Text.plain` leaves them out, with all control characters but white space.
-/

namespace AbstractSql.Text

/-- Where a terminal stands in a control sequence. -/
inductive TerminalState where
  /-- In no sequence. -/
  | ground
  /-- After an escape. -/
  | escape
  /-- After an escape and what stands between it and its final character. -/
  | intermediate
  /-- In a control sequence, which a letter ends. -/
  | control
  /-- At the start of a string for a device. -/
  | device
  /-- In a string, which a string terminator ends. -/
  | string
  /-- In a command for the system, which a bell ends too. -/
  | command
  deriving DecidableEq

namespace TerminalState

/-- Whether a byte is one of those between two bounds. -/
def within (low high byte : Nat) : Bool := low ≤ byte && byte ≤ high

/-- State after a byte. An escape starts a sequence wherever it stands, and two control characters
break one off. -/
def next (state : TerminalState) (byte : Nat) : TerminalState :=
  if byte == 0x1B then escape
  else if byte == 0x18 || byte == 0x1A then ground
  else
    match state with
    | ground => ground
    | escape =>
      if within 0x20 0x2F byte then intermediate
      else if byte == 0x5B then control
      else if byte == 0x5D then command
      else if byte == 0x50 then device
      else if byte == 0x58 || byte == 0x5E || byte == 0x5F then string
      else if within 0x30 0x7E byte then ground
      else escape
    | intermediate => if within 0x30 0x7E byte then ground else intermediate
    | control => if within 0x40 0x7E byte then ground else control
    | device => if within 0x40 0x7E byte then string else device
    | string => if byte == 0x9C then ground else string
    | command => if byte == 0x07 then ground else command

/-- Whether a character below 128 is white space of a terminal. -/
def isSpace (byte : Nat) : Bool := byte == 0x09 || byte == 0x0A || byte == 0x0C || byte == 0x0D

/-- Whether a character below 128 shows outside of sequences. -/
def isShown (byte : Nat) : Bool := within 0x20 0x7E byte || isSpace byte

/-- Whether white space counts within a sequence. -/
def keepsSpace : TerminalState → Bool
  | ground | escape | intermediate | control => true
  | _ => false

end TerminalState

/-- A terminal that is sent characters. -/
structure Terminal where
  /-- Where it stands in a sequence. -/
  state : TerminalState := .ground
  /-- Whether it shows what it is sent. White space in a sequence lets it show what follows. -/
  showing : Bool := false

/-- Send a character: the terminal after it, and whether the character shows. -/
def Terminal.send (t : Terminal) (c : Char) : Terminal × Bool :=
  let code := c.toNat
  if code < 0x80 then
    if t.showing && TerminalState.isShown code then (t, true)
    else
      let state := t.state.next code
      let shows :=
        if t.state == .ground then TerminalState.isShown code
        else t.state.keepsSpace && TerminalState.isSpace code
      ({ state, showing := shows }, shows)
  else if t.showing || t.state == .ground then ({ state := .ground, showing := true }, true)
  else
    let bytes := (String.singleton c).toUTF8.toList.map UInt8.toNat
    ({ state := bytes.foldl TerminalState.next t.state, showing := false }, false)

/-- The characters that a terminal shows. -/
def shownCharacters : Terminal → List Char → List Char
  | _, [] => []
  | t, c :: rest =>
    let (t, shows) := t.send c
    if shows then c :: shownCharacters t rest else shownCharacters t rest

/-- A text without the sequences that steer a terminal. -/
def plain (text : String) : String := String.ofList (shownCharacters {} text.toList)

end AbstractSql.Text
