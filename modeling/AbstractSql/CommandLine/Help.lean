import AbstractSql.CommandLine.Request
import AbstractSql.Text.Terminal

/-!
# Help on the command line

The text of the help for each topic, the line with the version, and the wording of what is wrong
with a command line. Labels stand in a column of their own, as wide as the widest of them, and every
line of a description starts in the same column.
-/

namespace AbstractSql.CommandLine

/-- Name of the program. -/
def programName : String := "qail-rdb"

/-- Line with the version. -/
def versionLine : String := programName ++ " 0.1.0\n"

/-- Name of the variable of the environment that names the file of the catalog. -/
def schemaVariable : String := "QAIL_RDB_SCHEMA"

/-- A text that a terminal shows in bold letters. -/
def bold (text : String) : String := "\x1b[1m" ++ text ++ "\x1b[0m"

/-- Rows of labels and descriptions as lines, the labels bold and the descriptions aligned. -/
def alignedRows (rows : List (String × String)) : List String :=
  let width := (rows.map fun row => row.1.length).foldl max 0
  let spaces (n : Nat) : String := String.ofList (List.replicate n ' ')
  rows.map fun row =>
    "  " ++ bold row.1 ++ spaces (width - row.1.length + 2)
      ++ String.intercalate ("\n" ++ spaces (width + 4)) (row.2.splitOn "\n")

namespace ValueOption

/-- Names of an option with a name for its value. -/
def label (option : ValueOption) : String :=
  "-" ++ option.short.toString ++ ", --" ++ option.long ++ " <" ++ option.long.toUpper ++ ">"

/-- What an option is for; that of the catalog shows what the environment says. -/
def description (environment : Option String) : ValueOption → String
  | schema => "Entity catalog (TOML) [env: " ++ schemaVariable ++ "=" ++ environment.getD "" ++ "]"
  | config => "Engine config (TOML); defaults to the user config directory"
  | mode =>
    "[default: select] [possible values: " ++ String.intercalate ", " (modes.map (·.1)) ++ "]"

end ValueOption

namespace Topic

/-- What is explained. -/
def about : Topic → String
  | level .program => "Compile abstract commands and queries to MySQL"
  | level .compile => "Compile a JSON list of commands into execution units"
  | level .select => "Compile a JSON query into a read statement"
  | help => "Print this message or the help of the given subcommand(s)"

/-- How it is called. -/
def usage : Topic → String
  | level .program => programName ++ " [OPTIONS] <COMMAND>"
  | level .compile => programName ++ " compile [OPTIONS] <COMMANDS>"
  | level .select => programName ++ " select [OPTIONS] <QUERY>"
  | help => programName ++ " help [COMMAND]..."

/-- Commands and inputs, under their heading. -/
def parts : Topic → List String
  | level .program =>
    "Commands:" :: alignedRows
      [("compile", (level .compile).about), ("select", (level .select).about),
        ("help", help.about)]
  | level .compile => ["Arguments:", "  <COMMANDS>  Path to the commands JSON file"]
  | level .select => ["Arguments:", "  <QUERY>  Path to the query JSON file"]
  | help => ["Arguments:", "  [COMMAND]...  Print help for the subcommand(s)"]

/-- Options and switches, under their heading. -/
def options (environment : Option String) : Topic → List String
  | level l =>
    let values := l.options.map fun option => (option.label, option.description environment)
    let version := if l = .program then [("-V, --version", "Print version")] else []
    "" :: "Options:" :: alignedRows (values ++ [("-h, --help", "Print help")] ++ version)
  | help => []

/-- Examples of calls. -/
def examples : Topic → List String
  | level .program =>
    ["", "EXAMPLES:",
      "    " ++ programName ++ " compile --schema catalog.toml commands.json",
      "    " ++ programName ++ " select --schema catalog.toml query.json --mode exists"]
  | _ => []

/-- The text of the help, for a reader of plain text. What steers a terminal is left out: the bold
labels are plain, and a sequence that the environment leaves open ends where the next label
begins. -/
def text (environment : Option String) (topic : Topic) : String :=
  let lines := [topic.about, "", "Usage: " ++ topic.usage, ""]
    ++ topic.parts ++ topic.options environment ++ topic.examples
  Text.plain (String.join (lines.map fun line => line ++ "\n"))

end Topic

namespace UsageFault

/-- Wording of what is wrong. -/
def message : UsageFault → String
  | unknownOption argument => "unexpected argument '" ++ argument ++ "' found"
  | surplusValue argument => "unexpected value for '" ++ argument ++ "' found"
  | missingValue option => "a value is required for '" ++ option.label ++ "' but none was supplied"
  | repeated option => "the argument '" ++ option.label ++ "' cannot be used multiple times"
  | invalidValue option value =>
    "invalid value '" ++ value ++ "' for '" ++ option.label ++ "'"
  | emptyInput => "the input file must have a name"
  | unexpected argument => "unexpected argument '" ++ argument ++ "' found"
  | missingInput => "the input file was not provided"
  | missingCommand => programName ++ " requires a subcommand but one was not provided"
  | unknownCommand name => "unrecognized subcommand '" ++ name ++ "'"

/-- The text that a wrong command line is answered with. -/
def text (fault : UsageFault) : String :=
  "error: " ++ fault.message ++ "\n\nUsage: " ++ (Topic.level .program).usage
    ++ "\n\nFor more information, try '--help'.\n"

end UsageFault

end AbstractSql.CommandLine
