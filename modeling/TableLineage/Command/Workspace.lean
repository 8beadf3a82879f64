import TableLineage.Command.Arguments
import TableLineage.Command.Session
import TableLineage.Config.Load
import TableLineage.File.Discovery
import TableLineage.Lineage.Build

/-!
# Workspaces

A workspace is a configuration with the folders that a command works on.  The configuration comes
from the file that is given, else from the current folder, else it has defaults for the SQL folder
that is given.  Paths in a configuration are relative to its folder, those on the command line to
the current folder.
-/

namespace TableLineage.Command

/-- A configuration and the folders to work on. -/
structure Workspace where
  config : Config
  sqlDir : Path
  outputDir : Path
  uiDir : Option Path
  deriving DecidableEq, Repr

variable {m : Type → Type} [Monad m]

/-- The configuration, or an error in a context. -/
def requireConfig (context : String) (action : m (Except ConfigLoadError Config)) :
    Session m Config := do
  match ← Session.access action with
  | .ok config => return config
  | .error error => Session.fail context error.messages

/-- The folder of a file, taken from another folder. -/
def folderOf (current file : Path) : Path :=
  match file.parent? with
  | some parent => if parent.text = "" then current else current.join parent
  | none => current

/-- The configuration to use and the folder from which its paths are taken. -/
def findConfig (files : FileAccess m) (globals : GlobalArguments) (sqlDir : Option String) :
    Session m (Config × Path) := do
  let current ← Session.access files.currentFolder
  match globals.config with
  | some text =>
    let path : Path := ⟨text⟩
    let config ← requireConfig s!"failed to load config {text}" (Config.load files path)
    return (config, folderOf current path)
  | none =>
    let found ← Session.access (Config.firstPresent files current Config.fileNames)
    match found, sqlDir with
    | some _, _ =>
        return (← requireConfig "failed to load config" (Config.loadFrom files current), current)
    | none, some folder => return (Config.ofFolder folder, current)
    | none, none =>
      throw (.error ["no lineage.yml in the current directory; pass --config or --sql-dir"])

/-- The workspace of a command. -/
def openWorkspace (files : FileAccess m) (globals : GlobalArguments)
    (sqlDir outputDir : Option String) : Session m Workspace := do
  let (config, root) ← findConfig files globals sqlDir
  let current ← Session.access files.currentFolder
  return {
    config
    sqlDir := sqlDir.elim (config.sqlFolderIn root) fun folder => current.join ⟨folder⟩
    outputDir := outputDir.elim (config.outputIn root) fun folder => current.join ⟨folder⟩
    uiDir := config.uiIn root }

/-! ## Scanning -/

/-- The source in a file of the SQL folder. -/
def readSource (files : FileAccess m) (folder path : Path) : m (Except SourceError SqlSource) := do
  match ← files.read (folder.join path) with
  | .error failure => return .error (.io path failure.message)
  | .ok bytes => return SqlSource.decode path bytes

/-- The dialect that an argument names, or else that of the configuration. -/
def chooseDialect (config : Config) (name : Option String) : Session m Sql.Dialect :=
  match name with
  | none => return config.dialect
  | some name =>
    match Sql.Dialect.ofName name with
    | .ok dialect => return dialect
    | .error unknown => Session.fail "invalid --dialect" [unknown.message]

/-- The warning that a folder has no SQL files, if it has none. -/
def emptyWarning (folder : Path) (found : List Path) : List LogRecord :=
  if found.isEmpty then
    [.warn s!"no SQL files found in {folder.text}; check sql_folder_path"]
  else
    []

/-- The account of a scan with the folders that could not be listed. -/
def withUnreadable (scan : LineageScan) (unreadable : List (Path × String)) : LineageScan :=
  let skipped := unreadable.map fun (path, cause) => (⟨path, .unreadableFolder cause⟩ : SkippedFile)
  { scan with summary := { scan.summary with skipped := scan.summary.skipped ++ skipped } }

/-- The lineage of the SQL files of a workspace. -/
def scanWorkspace (files : FileAccess m) (verbose : Bool) (workspace : Workspace)
    (dialectName : Option String) : Session m LineageScan := do
  let dialect ← chooseDialect workspace.config dialectName
  let folder := workspace.sqlDir
  let exclude := workspace.config.exclude
  match ← Session.access (files.listSql exclude folder) with
  | .error error => Session.fail s!"failed to scan {folder.text}" error.messages
  | .ok entries =>
    let found := discover exclude entries
    Session.log verbose (discoveryLog folder exclude entries ++ emptyWarning folder found.files)
    let inputs ← found.files.mapM fun path => Session.access (readSource files folder path)
    let naming := workspace.config.naming.tableFor
    Session.log verbose (buildLog dialect naming inputs)
    return withUnreadable (buildLineage dialect naming inputs) found.unreadable

/-- Writes the account of a scan to the diagnostics. -/
def noteSummary (summary : ScanSummary) : Session m Unit := do
  Session.note summary.text
  summary.skipped.forM fun skipped =>
    Session.note ("  skipped " ++ skipped.path.text ++ ": " ++ skipped.reason.message)

end TableLineage.Command
