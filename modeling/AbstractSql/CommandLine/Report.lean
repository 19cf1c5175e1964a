import AbstractSql.Batch
import AbstractSql.CommandLine.Help
import AbstractSql.Form.Command
import AbstractSql.Form.Document
import AbstractSql.Json.Reader

/-!
# Reports on the command line

A request is carried out on the texts of its files: the catalog is read first, then the settings,
then the input. The report shows the statements with what is bound to them. The first thing that
goes wrong is all that is reported.
-/

namespace AbstractSql.CommandLine

/-- Reads a file: its text, or why it cannot be read. -/
abbrev FileReader := String → Except String String

/-- Why a request cannot be carried out. -/
inductive RunFault where
  /-- The catalog cannot be read. -/
  | schema (path : String) (failure : Failure)
  /-- The settings cannot be read. -/
  | config (path : String) (failure : Failure)
  /-- The file of the input cannot be read. -/
  | unreadable (path reason : String)
  /-- The input is no list of commands. -/
  | noCommands
  /-- The input is no query. -/
  | noQuery
  /-- The standard settings cannot be read, or the input cannot be compiled. -/
  | failure (failure : Failure)
  deriving DecidableEq

/-- Wording of why a request cannot be carried out. -/
def RunFault.message : RunFault → String
  | schema path cause => "loading schema " ++ path ++ ": " ++ cause.message
  | config path cause => "loading config " ++ path ++ ": " ++ cause.message
  | unreadable path reason => "reading " ++ path ++ ": " ++ reason
  | noCommands => "parsing commands: the text is not a list of commands"
  | noQuery => "parsing query: the text is not a query"
  | failure cause => cause.message

/-- Answer of the program. -/
structure Answer where
  /-- Exit code. -/
  code : UInt32 := 0
  /-- What goes to standard output. -/
  output : String := ""
  /-- What goes to the error stream. -/
  errors : String := ""
  deriving DecidableEq

/-- Lines, each with its end. -/
def ofLines (lines : List String) : String := String.join (lines.map fun line => line ++ "\n")

/-- Lines on what is bound, nothing when nothing is. -/
def parameterLines (set : ParameterSet) : List String :=
  match set.items with
  | [] => []
  | items =>
    "  Parameters:" :: items.map fun p => "    ?" ++ p.name ++ " = " ++ p.value.display

/-- Lines on a unit, after a blank line. -/
def unitLines (number : Nat) (u : ExecutionUnit) : List String :=
  let flags := (if u.performAlone then ["alone"] else [])
    ++ if u.mustAffectRows then ["must-affect"] else []
  "" :: ("Unit " ++ toString number ++ ": " ++ String.intercalate ", " flags)
    :: u.statements.map (fun statement => "  " ++ statement) ++ parameterLines u.parameters

/-- Report on compiled commands. -/
def unitsReport (commandCount : Nat) (units : List ExecutionUnit) : String :=
  ofLines
    (("Compiled " ++ toString commandCount ++ " commands → " ++ toString units.length ++ " units")
      :: (units.zipIdx 1).flatMap fun entry => unitLines entry.2 entry.1)

/-- Report on a statement. -/
def statementReport (s : Statement) : String :=
  ofLines ("Generated SQL:" :: s.text :: parameterLines s.parameters)

/-- Take the text of a file as a document. -/
def load {α : Type} (decode : String → Except Failure α) : Except String String → Except Failure α
  | .error reason => .error (.io reason)
  | .ok text => decode text

/-- Carry out a task on the text of its input. -/
def Task.report (catalog : Catalog) (settings : Settings) (text : String) :
    Task → Except RunFault String
  | .compile => do
    let some commands := (Json.ofText? text).bind (Json.toList? (Command.ofJson? .jsonFile))
      | throw .noCommands
    let units ← (Command.planAll catalog settings.batch.thresholds.toPolicy commands).mapError
      .failure
    return unitsReport commands.length units
  | .select mode => do
    let some query := (Json.ofText? text).bind Query.ofJson? | throw .noQuery
    let statement ← ((Statement.read catalog mode query).run.run {}).1.mapError .failure
    return statementReport statement

/-- Carry out a request. One that names no settings takes those of the user, if there is a file of
them. -/
def Request.report (files : FileReader) (userSettings : Option (Except String String))
    (request : Request) : Except RunFault String := do
  let catalog ←
    match request.schema with
    | none => pure {}
    | some path => (load Catalog.ofToml (files path)).mapError (.schema path)
  let settings ←
    match request.config, userSettings with
    | some path, _ => (load Settings.ofToml (files path)).mapError (.config path)
    | none, some text => (load Settings.ofToml text).mapError .failure
    | none, none => pure {}
  let text ← (files request.input).mapError (.unreadable request.input)
  request.task.report catalog settings text

/-- Files that a request names. -/
def Request.paths (request : Request) : List String :=
  request.schema.toList ++ request.config.toList ++ [request.input]

/-- Answer a command line that is not run. -/
def Halt.answer (environment : Option String) : Halt → Answer
  | .fault cause => { code := 2, errors := cause.text }
  | .help topic => { output := topic.text environment }
  | .version => { output := versionLine }

/-- Answer a request. -/
def Request.answer (files : FileReader) (userSettings : Option (Except String String))
    (request : Request) : Answer :=
  match request.report files userSettings with
  | .ok output => { output }
  | .error fault => { code := 1, errors := "Error: " ++ fault.message ++ "\n" }

end AbstractSql.CommandLine
