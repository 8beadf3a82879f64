import TableLineage.Sql.Dialect
import TableLineage.Yaml.Line

/-!
# Faults in the structure of a configuration

The text of a fault says in which value it was found, and at which line and column, both numbered
from one.
-/

namespace TableLineage

/-- The keys of a configuration. -/
inductive ConfigField where
  | sqlFolder
  | output
  | ui
  | schema
  | dialect
  | models
  | exclude
  deriving DecidableEq, Repr

namespace ConfigField

/-- The key of a field. -/
def key : ConfigField → String
  | sqlFolder => "sql_folder_path"
  | output => "lineage_output"
  | ui => "lineage_ui"
  | schema => "file_schema"
  | dialect => "dialect"
  | models => "models"
  | exclude => "exclude_paths"

/-- A second key for the schema. -/
def otherSchemaKey : String :=
  "file-schema"

/-- The fields in the order in which messages list them. -/
def all : List ConfigField :=
  [sqlFolder, output, ui, schema, dialect, models, exclude]

/-- The keys in the order in which messages list them. -/
def allKeys : List String :=
  all.flatMap fun field => if field = schema then [otherSchemaKey, field.key] else [field.key]

/-- The field of a key. -/
def ofKey? (key : String) : Option ConfigField :=
  if key = otherSchemaKey then some schema else all.find? (·.key == key)

end ConfigField

/-- A fault in the structure of a configuration. -/
inductive ConfigFault where
  | missingField (field : ConfigField)
  | repeatedField (field : ConfigField)
  | unknownField (key : String)
  | unknownDialect (name : String)
  /-- A value of one kind stands where another is needed. -/
  | mismatch (found needed : String)
  deriving DecidableEq, Repr

/-- A name as messages show it. -/
def ticked (name : String) : String :=
  "\x60" ++ name ++ "\x60"

/-- The names of a choice as messages show them. -/
def choiceText (names : List String) : String :=
  "expected one of " ++ ", ".intercalate (names.map ticked)

/-- The text of a fault. -/
def ConfigFault.text : ConfigFault → String
  | missingField field => "missing field " ++ ticked field.key
  | repeatedField field => "duplicate field " ++ ticked field.key
  | unknownField key => "unknown field " ++ ticked key ++ ", " ++ choiceText ConfigField.allKeys
  | unknownDialect name =>
    "unknown variant " ++ ticked name ++ ", " ++ choiceText (Sql.Dialect.all.map (·.name))
  | mismatch found needed => "invalid type: " ++ found ++ ", expected " ++ needed

/-- A fault, the value in which it lies, and its mark.  The path of the whole configuration is
empty. -/
structure PlacedFault where
  fault : ConfigFault
  path : String
  mark : Yaml.Mark
  deriving DecidableEq, Repr

/-- The text of a mark; the start of the text needs none. -/
def markText (mark : Yaml.Mark) : String :=
  let line := mark.line + 1
  let column := mark.column + 1
  if mark.line = 0 ∧ mark.column = 0 then "" else s!" at line {line} column {column}"

/-- The text of a fault with its place. -/
def PlacedFault.text (placed : PlacedFault) : String :=
  (if placed.path = "" then "" else placed.path ++ ": ") ++ placed.fault.text ++
    markText placed.mark

/-- Why a text is not a configuration. -/
inductive ConfigTextError where
  /-- The text is not YAML, or not a single document. -/
  | malformed
  | structured (fault : PlacedFault)
  deriving DecidableEq, Repr

/-- The text of an error without its code. -/
def ConfigTextError.cause : ConfigTextError → String
  | malformed => "the text is not well-formed YAML"
  | structured fault => fault.text

/-- The text of an error. -/
def ConfigTextError.message (error : ConfigTextError) : String :=
  "[E009] Config parse error: " ++ error.cause

end TableLineage
