import AbstractSql.Statement

/-!
# Requests on the command line

A command line has two levels: the program with its options, and a command with options and an
input of its own. Arguments are taken in from left to right; a value in an argument of its own is
looked at when the next option or input comes. A request for help or for the version is answered
as soon as it is reached, so only faults in front of it count. The catalog and the settings may be
named at either level, and the command's level wins.
-/

namespace AbstractSql.CommandLine

/-- An option with a value. -/
inductive ValueOption where
  /-- The file of the catalog. -/
  | schema
  /-- The file of the settings. -/
  | config
  /-- The way to read a query. -/
  | mode
  deriving DecidableEq

/-- A part of the command line. -/
inductive Level where
  /-- In front of the name of a command. -/
  | program
  /-- After `compile`. -/
  | compile
  /-- After `select`. -/
  | select
  deriving DecidableEq

/-- What help can be about. -/
inductive Topic where
  /-- The program or one of its commands. -/
  | level (level : Level)
  /-- The help command itself. -/
  | help
  deriving DecidableEq

/-- What is wrong with a command line. -/
inductive UsageFault where
  /-- An option that the level does not know. -/
  | unknownOption (argument : String)
  /-- A switch with a value. -/
  | surplusValue (argument : String)
  /-- An option without its value. -/
  | missingValue (option : ValueOption)
  /-- An option that one level has twice. -/
  | repeated (option : ValueOption)
  /-- A value that the option does not take. -/
  | invalidValue (option : ValueOption) (value : String)
  /-- An input with an empty name. -/
  | emptyInput
  /-- An argument that has no place. -/
  | unexpected (argument : String)
  /-- No input. -/
  | missingInput
  /-- No command. -/
  | missingCommand
  /-- A command that there is no help about. -/
  | unknownCommand (name : String)
  deriving DecidableEq

/-- Why a command line is not run. -/
inductive Halt where
  /-- It is wrong. -/
  | fault (fault : UsageFault)
  /-- It asks for help. -/
  | help (topic : Topic)
  /-- It asks for the version. -/
  | version
  deriving DecidableEq

/-- What is to be done with the input. -/
inductive Task where
  /-- Compile a list of commands. -/
  | compile
  /-- Compile a query to the statement that reads it in a given way. -/
  | select (mode : ReadMode)
  deriving DecidableEq

/-- What is to be done, and the files to take. -/
structure Request where
  /-- File of the catalog. -/
  schema : Option String
  /-- File of the settings. -/
  config : Option String
  /-- File of the input. -/
  input : String
  /-- What is to be done. -/
  task : Task
  deriving DecidableEq

namespace ValueOption

/-- Long name of an option. -/
def long : ValueOption → String
  | schema => "schema"
  | config => "config"
  | mode => "mode"

/-- Short name of an option. -/
def short : ValueOption → Char
  | schema => 's'
  | config => 'c'
  | mode => 'm'

/-- The ways to read a query by name. -/
def modes : List (String × ReadMode) :=
  [("select", .select), ("paging", .paging), ("exists", .existence), ("count", .aggregate .count)]

/-- Whether an option takes a value: a mode is one of the known ones, and no file has an empty
name. -/
def takes (option : ValueOption) (value : String) : Bool :=
  match option with
  | mode => (modes.lookup value).isSome
  | _ => value != ""

end ValueOption

namespace Level

/-- Options of a level, in the order of its help. -/
def options : Level → List ValueOption
  | select => [.mode, .schema, .config]
  | _ => [.schema, .config]

/-- Commands by name. -/
def commands : List (String × Level) := [("compile", compile), ("select", select)]

/-- What a switch with a long name asks for. -/
def longSwitch? (level : Level) (name : String) : Option Halt :=
  match level, name with
  | level, "help" => some (.help (.level level))
  | program, "version" => some .version
  | _, _ => none

/-- What a switch with a short name asks for. -/
def shortSwitch? (level : Level) (name : Char) : Option Halt :=
  match level, name with
  | level, 'h' => some (.help (.level level))
  | program, 'V' => some .version
  | _, _ => none

end Level

/-- What a level has been given so far. -/
structure Given where
  /-- Options with their values. -/
  values : List (ValueOption × String) := []
  /-- Name of the input. -/
  input : Option String := none

/-- The last option or input, as long as it is not looked at. -/
inductive Pending where
  /-- Nothing. -/
  | nothing
  /-- An option that waits for its value. -/
  | option (option : ValueOption)
  /-- An option with its value. -/
  | value (option : ValueOption) (value : String)
  /-- An input. -/
  | input (name : String)
  deriving DecidableEq

/-- Where the reading of a level stands. -/
structure Progress where
  /-- What has been given. -/
  given : Given := {}
  /-- What is not looked at yet. -/
  pending : Pending := .nothing
  /-- Whether only inputs follow. -/
  onlyInputs : Bool := false

namespace Progress

/-- A fault as the result of a step. -/
def refuse {α : Type} (fault : UsageFault) : Except Halt α := .error (.fault fault)

/-- Give an option its value. -/
def assign (p : Progress) (option : ValueOption) (value : String) : Except Halt Progress :=
  if (p.given.values.lookup option).isSome then refuse (.repeated option)
  else if option.takes value then
    .ok { p with given := { p.given with values := p.given.values ++ [(option, value)] } }
  else refuse (.invalidValue option value)

/-- Look at what is pending. -/
def settle (p : Progress) : Except Halt Progress :=
  let settled := { p with pending := .nothing }
  match p.pending with
  | .nothing => .ok settled
  | .option option => refuse (.missingValue option)
  | .value option value => settled.assign option value
  | .input "" => refuse .emptyInput
  | .input name => .ok { settled with given := { settled.given with input := some name } }

/-- Take in an option. A value that is attached is looked at right away. -/
def takeOption (p : Progress) (option : ValueOption) (attached : Option String) :
    Except Halt Progress := do
  let settled ← p.settle
  match attached with
  | none => return { settled with pending := .option option }
  | some value => settled.assign option value

/-- Take in an option by its long name. -/
def takeLong (level : Level) (p : Progress) (name : String) (attached : Option String) :
    Except Halt Progress := do
  match level.options.find? fun option => option.long == name, level.longSwitch? name with
  | some option, _ => p.takeOption option attached
  | none, some halt =>
    if attached.isSome then refuse (.surplusValue ("--" ++ name))
    else
      discard p.settle
      throw halt
  | none, none => refuse (.unknownOption ("--" ++ name))

/-- Take in an option by its short name. What follows the name is the value, and an equals sign may
stand between them. -/
def takeShort (level : Level) (p : Progress) (name : Char) (rest : List Char) :
    Except Halt Progress := do
  match level.options.find? fun option => option.short == name, level.shortSwitch? name with
  | some option, _ =>
    match rest with
    | [] => p.takeOption option none
    | '=' :: value => p.takeOption option (some (String.ofList value))
    | value => p.takeOption option (some (String.ofList value))
  | none, some halt => do
    discard p.settle
    throw halt
  | none, none => refuse (.unknownOption (String.ofList ['-', name]))

/-- Take in an input. The program itself has none, and a command has one. -/
def takeInput (level : Level) (p : Progress) (name : String) : Except Halt Progress := do
  if level = .program then refuse (.unexpected name)
  else
    let settled ← p.settle
    if settled.given.input.isSome then refuse (.unexpected name)
    else return { settled with pending := .input name }

/-- Take in an argument that is no name of a command. -/
def take (level : Level) (p : Progress) (argument : String) : Except Halt Progress :=
  if p.onlyInputs then p.takeInput level argument
  else
    match argument.toList with
    | ['-', '-'] => .ok { p with onlyInputs := true }
    | '-' :: '-' :: rest =>
      let name := String.ofList (rest.takeWhile fun c => c != '=')
      match rest.dropWhile fun c => c != '=' with
      | [] => p.takeLong level name none
      | _ :: value => p.takeLong level name (some (String.ofList value))
    | '-' :: name :: rest => p.takeShort level name rest
    | _ =>
      match p.pending with
      | .option option => .ok { p with pending := .value option argument }
      | _ => p.takeInput level argument

/-- Whether an argument that follows may be the name of a command. -/
def mayNameCommand (p : Progress) : Bool :=
  !p.onlyInputs && match p.pending with
    | .option _ => false
    | _ => true

end Progress

/-- What help about some names is about. -/
def helpTopic : List String → Halt
  | [] => .help (.level .program)
  | ["help"] => .help .help
  | "help" :: name :: _ => .fault (.unknownCommand name)
  | name :: rest =>
    match Level.commands.lookup name, rest with
    | some level, [] => .help (.level level)
    | some _, name :: _ => .fault (.unknownCommand name)
    | none, _ => .fault (.unknownCommand name)

/-- Take in the arguments of a command. -/
def readCommand (level : Level) : List String → Progress → Except Halt Progress
  | [], p => p.settle
  | argument :: rest, p => do readCommand level rest (← p.take level argument)

/-- Take in the arguments up to the name of a command. Its name and the arguments after it are
returned with what the program itself has been given so far. -/
def readProgram : List String → Progress → Except Halt (Progress × Level × List String)
  | [], p => do
    discard p.settle
    Progress.refuse .missingCommand
  | argument :: rest, p => do
    if p.mayNameCommand then
      if argument = "help" then throw (helpTopic rest)
      if let some level := Level.commands.lookup argument then return (p, level, rest)
    readProgram rest (← p.take .program argument)

/-- The file of the catalog. Where a level names none it is that of the environment, and a name
there must not be empty. -/
def chooseSchema (environment : Option String) (outer inner : Given) :
    Except Halt (Option String) :=
  let outerSchema := outer.values.lookup .schema
  let innerSchema := inner.values.lookup .schema
  if environment = some "" && (outerSchema.isNone || innerSchema.isNone) then
    Progress.refuse (.invalidValue .schema "")
  else .ok (innerSchema.or (outerSchema.or environment))

/-- The request of a command line, given the file of the catalog that the environment names. -/
def Request.ofArguments (environment : Option String) (arguments : List String) :
    Except Halt Request := do
  let (outer, level, rest) ← readProgram arguments {}
  let inner ← readCommand level rest {}
  let some input := inner.given.input | Progress.refuse .missingInput
  let outer ← outer.settle
  let schema ← chooseSchema environment outer.given inner.given
  let mode := (inner.given.values.lookup .mode).bind fun name => ValueOption.modes.lookup name
  return {
    schema
    config := (inner.given.values.lookup .config).or (outer.given.values.lookup .config)
    input
    task := if level = .select then .select (mode.getD .select) else .compile }

end AbstractSql.CommandLine
