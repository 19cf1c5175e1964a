import AbstractSql.Failure
import AbstractSql.Form.Catalog
import AbstractSql.Form.Settings
import AbstractSql.Toml

/-!
# Catalogs and settings in TOML texts

A text is read as a document, and the document as a catalog or as settings. What cannot be read is
a fault of the configuration.
-/

namespace AbstractSql

/-- Read a text as a document and take it apart; a failure tells which of the two went wrong. -/
def ofDocument {α : Type} (decode : Json → Option α) (fault : String → ConfigurationFault)
    (text : String) : Except Failure α :=
  match Toml.ofText? text with
  | none => .error (.configuration (fault "the text is no TOML document"))
  | some json =>
    match decode json with
    | none => .error (.configuration (fault "the document does not have the expected form"))
    | some a => .ok a

/-- The catalog of a text. -/
def Catalog.ofToml (text : String) : Except Failure Catalog :=
  ofDocument (Catalog.ofJson? .toml) .invalidCatalog text

/-- The settings of a text. -/
def Settings.ofToml (text : String) : Except Failure Settings :=
  ofDocument (Settings.ofJson? .toml) .invalidSettings text

end AbstractSql
