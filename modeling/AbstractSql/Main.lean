import AbstractSql.CommandLine.Report

/-!
# The program

Compiles the commands or the query of a file without a server. This module only reads the
environment and the files, and prints the answer.
-/

namespace AbstractSql.CommandLine

/-- Read a file; nothing when there is none. -/
def readFile? (path : String) : IO (Option (Except String String)) := do
  match ← (IO.FS.readFile path).toBaseIO with
  | .ok text => return some (.ok text)
  | .error (.noFileOrDirectory ..) => return none
  | .error fault => return some (.error (toString fault))

/-- Read files ahead. -/
def readFiles (paths : List String) : IO FileReader := do
  let texts ← paths.mapM fun path => do return (path, ← readFile? path)
  return fun path => ((texts.lookup path).join).getD (.error "no such file")

/-- Directory of the user's settings: the one the environment names, if its path is absolute, else
the usual one in the home directory. -/
def settingsDirectory? (named home : Option String) : Option String :=
  (named.filter fun path => path.startsWith "/").or (home.map fun path => path ++ "/.config")

/-- Read the settings of the user, if there is a file of them. -/
def readUserSettings : IO (Option (Except String String)) := do
  match settingsDirectory? (← IO.getEnv "XDG_CONFIG_HOME") (← IO.getEnv "HOME") with
  | none => return none
  | some directory => readFile? (directory ++ "/qail-rdb/config.toml")

/-- Answer a command line. -/
def run (arguments : List String) : IO Answer := do
  let environment ← IO.getEnv schemaVariable
  match Request.ofArguments environment arguments with
  | .error halt => return halt.answer environment
  | .ok request => return request.answer (← readFiles request.paths) (← readUserSettings)

end AbstractSql.CommandLine

/-- Answer the command line of the program. -/
def main (arguments : List String) : IO UInt32 := do
  let answer ← AbstractSql.CommandLine.run arguments
  IO.print answer.output
  IO.eprint answer.errors
  return answer.code
