import TableLineage.File.Path
import TableLineage.Sql.Dialect
import TableLineage.Table.Naming
import TableLineage.Text.Classes

/-!
# Configurations

A configuration says where SQL files are, where results go, and how tables are named.  Relative
paths are taken from a root folder, and the entries for single files are relative to the SQL folder.
-/

namespace TableLineage

/-- A configuration. -/
structure Config where
  sqlFolder : String
  /-- The folder that receives the results. -/
  output : String
  /-- A folder that receives a copy of the graph. -/
  ui : Option String
  /-- The schema in front of table names that are made from file names. -/
  schema : Option String
  dialect : Sql.Dialect
  /-- The tables that single files produce, by path, in ascending order of the paths. -/
  models : List (String × String)
  /-- The paths of files and folders to leave out. -/
  exclude : List String
  deriving DecidableEq, Repr

/-- What is wrong with the values of a configuration. -/
inductive InvalidConfig where
  | noSqlFolder
  | noOutput
  /-- The schema is blank or holds a blank. -/
  | badSchema (schema : String)
  | unnamedModel (path : String)
  deriving DecidableEq, Repr

/-- The text of the error. -/
def InvalidConfig.message : InvalidConfig → String
  | noSqlFolder => "[E002] Invalid config: sql_folder_path is missing or empty"
  | noOutput => "[E002] Invalid config: lineage_output must not be empty"
  | badSchema schema => s!"[E002] Invalid config: file_schema '{schema}' is not a valid schema name"
  | unnamedModel path => s!"[E002] Invalid config: models entry '{path}' has an empty table name"

namespace Config

/-- The configuration for a folder of SQL files with defaults for all else. -/
def ofFolder (sqlFolder : String) : Config where
  sqlFolder := sqlFolder
  output := "output"
  ui := none
  schema := none
  dialect := .generic
  models := []
  exclude := []

/-! ## Validity -/

/-- Whether a text can be a schema. -/
def isSchema (schema : String) : Bool :=
  !Text.isAllBlank schema && !schema.toList.any Text.isBlank

/-- The first thing that is wrong with a configuration. -/
def fault? (config : Config) : Option InvalidConfig :=
  if Text.isAllBlank config.sqlFolder then some .noSqlFolder
  else if Text.isAllBlank config.output then some .noOutput
  else match config.schema.filter fun schema => !isSchema schema with
    | some schema => some (.badSchema schema)
    | none =>
      (config.models.find? fun (_, table) => Text.isAllBlank table).map fun (path, _) =>
        .unnamedModel path

/-- The configuration, or what is wrong with it. -/
def validate (config : Config) : Except InvalidConfig Config :=
  match config.fault? with
  | some fault => .error fault
  | none => .ok config

/-! ## Folders and names -/

/-- The folder of SQL files, taken from a root folder. -/
def sqlFolderIn (config : Config) (root : Path) : Path :=
  root.join ⟨config.sqlFolder⟩

/-- The folder for results, taken from a root folder. -/
def outputIn (config : Config) (root : Path) : Path :=
  root.join ⟨config.output⟩

/-- The folder for the copy of the graph, taken from a root folder. -/
def uiIn (config : Config) (root : Path) : Option Path :=
  config.ui.map fun folder => root.join ⟨folder⟩

/-- The naming of the tables that files produce. -/
def naming (config : Config) : StemNaming :=
  let plain := match config.schema with
    | some schema => StemNaming.plain.withSchema (Text.trim schema)
    | none => .plain
  config.models.foldl (fun naming (path, table) => naming.withName path (Text.trim table)) plain

end Config

end TableLineage
