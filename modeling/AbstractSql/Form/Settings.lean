import AbstractSql.Form.Query
import AbstractSql.Settings

/-!
# Settings in JSON and TOML

Settings are written in the same form in both formats. Everything may be left out.
-/

namespace AbstractSql

/-- Thresholds of a value. -/
def BatchSettings.ofJson? (d : Dialect) (json : Json) : Option BatchSettings := do
  let r ← JsonRecord.of? d ["statement_threshold", "parameter_threshold"] json
  return {
    statementThreshold := ← r.optional "statement_threshold" Json.toInt?
    parameterThreshold := ← r.optional "parameter_threshold" Json.toInt? }

/-- Form of thresholds in JSON. -/
def BatchSettings.toJson (s : BatchSettings) : Json :=
  .object
    [("statement_threshold", .optional .int s.statementThreshold),
      ("parameter_threshold", .optional .int s.parameterThreshold)]

/-- Settings of a value. -/
def Settings.ofJson? (d : Dialect) (json : Json) : Option Settings := do
  let r ← JsonRecord.of? d ["batch", "isolation_level", "trace_statements"] json
  return {
    batch := ← r.defaulted "batch" {} (BatchSettings.ofJson? d)
    isolationLevel := ← r.optional "isolation_level" (Json.toChoice? d Isolation.choices)
    traceStatements := ← r.defaulted "trace_statements" false Json.toBool? }

/-- Form of settings in JSON. -/
def Settings.toJson (s : Settings) : Json :=
  .object
    [("batch", s.batch.toJson),
      ("isolation_level", .optional (fun level => .string level.name) s.isolationLevel),
      ("trace_statements", .bool s.traceStatements)]

/-- Server of a JSON value. -/
def Server.ofJson? (json : Json) : Option Server := do
  let r ← JsonRecord.of? .json ["name", "url"] json
  return { name := ← r.required "name" Json.toText?, url := ← r.optional "url" Json.toText? }

/-- Form of a server in JSON. -/
def Server.toJson (s : Server) : Json :=
  .object [("name", .string s.name), ("url", .optional .string s.url)]

end AbstractSql
