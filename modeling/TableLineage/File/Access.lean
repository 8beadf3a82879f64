import TableLineage.File.Path
import TableLineage.Text.Utf8

/-!
# Access to files, and the log

The commands see files through a record of operations, so that they can run on the files of the
system as well as on files that are held in memory.  What they do is told in log records; warnings
are always shown, debug records on demand.
-/

namespace TableLineage

/-! ## Log records -/

/-- How much a record matters. -/
inductive LogLevel where
  | debug
  | warn
  deriving DecidableEq, Repr

/-- A message about the work in progress. -/
structure LogRecord where
  level : LogLevel
  text : String
  deriving DecidableEq, Repr

namespace LogRecord

/-- A record for those who want to see every step. -/
def debug (text : String) : LogRecord :=
  ⟨.debug, text⟩

/-- A record of something that may need attention. -/
def warn (text : String) : LogRecord :=
  ⟨.warn, text⟩

/-- The line that shows a record. -/
def line (record : LogRecord) : String :=
  match record.level with
  | .debug => "DEBUG " ++ record.text
  | .warn => " WARN " ++ record.text

end LogRecord

/-! ## Files -/

/-- Why a file operation failed. -/
inductive FileFailure where
  | missing
  | alreadyExists
  | notFolder
  | isFolder
  | tooManyLinks
  /-- The content is not UTF-8. -/
  | notText
  | other (cause : String)
  deriving DecidableEq, Repr

/-- The text of a failure. -/
def FileFailure.message : FileFailure → String
  | missing => "No such file or directory (os error 2)"
  | alreadyExists => "File exists (os error 17)"
  | notFolder => "Not a directory (os error 20)"
  | isFolder => "Is a directory (os error 21)"
  | tooManyLinks => "Too many levels of symbolic links (os error 40)"
  | notText => "stream did not contain valid UTF-8"
  | other cause => cause

/-- The entries of a folder as far as they were looked at. -/
inductive Listing where
  | file
  | folder (entries : List (String × Listing))
  | unreadable (cause : String)
  deriving Inhabited

/-- The file operations.  Relative paths are taken from the current folder. -/
structure FileAccess (m : Type → Type) where
  currentFolder : m Path
  /-- Whether a path leads to something. -/
  isPresent : Path → m Bool
  isFolder : Path → m Bool
  read : Path → m (Except FileFailure (List UInt8))
  write : Path → List UInt8 → m (Except FileFailure Unit)
  /-- Creates a folder and the folders that it is in. -/
  createFolder : Path → m (Except FileFailure Unit)
  copy : Path → Path → m (Except FileFailure Unit)
  /-- The entries of a folder; the folders within it whose relative paths are wanted are listed
  too. -/
  list : Path → (wanted : Path → Bool) → m (Except FileFailure (List (String × Listing)))

namespace FileAccess

variable {m : Type → Type} [Monad m]

/-- The content of a file that is text. -/
def readText (files : FileAccess m) (path : Path) : m (Except FileFailure String) := do
  match ← files.read path with
  | .error failure => return .error failure
  | .ok bytes =>
    match Text.Utf8.decode bytes with
    | .ok text => return .ok text
    | .error _ => return .error .notText

/-- Makes a file hold a text. -/
def writeText (files : FileAccess m) (path : Path) (text : String) : m (Except FileFailure Unit) :=
  files.write path (Text.Utf8.encode text)

end FileAccess

end TableLineage
