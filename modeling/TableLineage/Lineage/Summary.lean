import TableLineage.File.Path
import TableLineage.Sql.Dialect
import TableLineage.Sql.Scan
import TableLineage.Table.Name
import TableLineage.Text.Utf8

/-!
# SQL sources and what became of them

A source is the text of a SQL file and the file's path in the SQL folder.  A file that cannot be
read or is not UTF-8 yields an error in its place, which concerns that file only.

Every file that was found is either processed or skipped for a reason.  A processed file can have
warnings.
-/

namespace TableLineage

/-! ## Sources -/

/-- The text of a SQL file. -/
structure SqlSource where
  path : Path
  sql : String
  deriving DecidableEq, Repr

/-- The lower-case stem of the file. -/
def SqlSource.stem? (source : SqlSource) : Option String :=
  source.path.stem?.map Text.lowercase

/-- Why a file has no text. -/
inductive SourceError where
  /-- The file could not be read. -/
  | io (path : Path) (cause : String)
  /-- The file is not UTF-8. -/
  | encoding (path : Path) (cause : String)
  | dialect (unknown : Sql.Dialect.Unknown)
  deriving DecidableEq, Repr

namespace SourceError

/-- The text of an error. -/
def message : SourceError → String
  | io path cause => s!"[L001] Failed to read '{path.text}': {cause}"
  | encoding path cause => s!"[L002] '{path.text}' is not valid UTF-8: {cause}"
  | dialect unknown => unknown.message

/-- The file that an error concerns; the empty path if it concerns none. -/
def path : SourceError → Path
  | io path _ | encoding path _ => path
  | dialect _ => ⟨""⟩

end SourceError

/-- The text without a byte-order mark at its start. -/
def withoutMark (text : String) : String :=
  match text.toList with
  | '\uFEFF' :: rest => String.ofList rest
  | _ => text

/-- The source that the bytes of a file hold. -/
def SqlSource.decode (path : Path) (bytes : List UInt8) : Except SourceError SqlSource :=
  match Text.Utf8.decode bytes with
  | .ok text => .ok ⟨path, withoutMark text⟩
  | .error fault => .error (.encoding path fault.message)

/-! ## What became of each file -/

/-- Why a file contributes nothing. -/
inductive SkipReason where
  | io (cause : String)
  | encoding (cause : String)
  /-- No table name can be made from the path. -/
  | unnamed
  /-- A folder could not be listed, so that its files were never seen. -/
  | unreadableFolder (cause : String)
  | failed (cause : String)
  deriving DecidableEq, Repr

/-- The text of a reason. -/
def SkipReason.message : SkipReason → String
  | io cause => s!"read failed: {cause}"
  | encoding cause => s!"not valid UTF-8: {cause}"
  | unnamed => "no table name can be derived from the file name"
  | unreadableFolder cause => s!"directory not readable: {cause}"
  | failed cause => s!"could not be processed: {cause}"

/-- A file that was skipped. -/
structure SkippedFile where
  path : Path
  reason : SkipReason
  deriving DecidableEq, Repr

/-- The file that an error skips. -/
def SkippedFile.ofError (error : SourceError) : SkippedFile where
  path := error.path
  reason :=
    match error with
    | .io _ cause => .io cause
    | .encoding _ cause => .encoding cause
    | .dialect unknown => .failed unknown.message

/-- A warning about a file. -/
structure FileWarning where
  path : Path
  warning : Sql.ScanWarning
  deriving DecidableEq, Repr

/-- The account of a scan of many files. -/
structure ScanSummary where
  /-- The number of files that were handed in. -/
  found : Nat
  /-- The number of files that contributed to the graph. -/
  processed : Nat
  skipped : List SkippedFile
  warnings : List FileWarning
  /-- The groups of tables that depend on each other. -/
  cycles : List (List TableId)
  deriving DecidableEq, Repr

namespace ScanSummary

/-- Whether files were skipped. -/
def hasSkips (summary : ScanSummary) : Bool :=
  !summary.skipped.isEmpty

/-- The account in one line. -/
def text (summary : ScanSummary) : String :=
  s!"Processed {summary.processed} of {summary.found} SQL files " ++
    s!"({summary.skipped.length} skipped, {summary.warnings.length} warnings)"

end ScanSummary

end TableLineage
