import TableLineage.Config.Read
import TableLineage.File.Access

/-!
# Loading a configuration

A configuration is read from a given file, or from the first file of a folder that has one of two
names.
-/

namespace TableLineage

/-- Why a configuration could not be loaded. -/
inductive ConfigLoadError where
  | notFound (path : Path)
  | unreadable (path : Path) (failure : FileFailure)
  | unusable (error : ConfigError)
  deriving DecidableEq, Repr

/-- The texts of an error and of its cause. -/
def ConfigLoadError.messages : ConfigLoadError → List String
  | notFound path => [s!"[E001] Config file not found: {path.text}"]
  | unreadable path failure =>
    let cause := failure.message
    [s!"[E008] Failed to access '{path.text}': {cause}", cause]
  | unusable (.text error) => [error.message, error.cause]
  | unusable (.invalid error) => [error.message]

namespace Config

/-- The names of configuration files in a folder, the one to prefer first. -/
def fileNames : List String :=
  ["lineage.yml", "lineage.yaml"]

variable {m : Type → Type} [Monad m]

/-- The configuration in a file. -/
def load (files : FileAccess m) (path : Path) : m (Except ConfigLoadError Config) := do
  if !(← files.isPresent path) then
    return .error (.notFound path)
  match ← files.readText path with
  | .error failure => return .error (.unreadable path failure)
  | .ok text =>
    match parse text with
    | .error error => return .error (.unusable error)
    | .ok config => return .ok config

/-- The first of some files of a folder that is there. -/
def firstPresent (files : FileAccess m) (folder : Path) : List String → m (Option Path)
  | [] => return none
  | name :: names => do
    let path := folder.join ⟨name⟩
    if ← files.isPresent path then return some path else firstPresent files folder names

/-- The configuration in a folder. -/
def loadFrom (files : FileAccess m) (folder : Path) : m (Except ConfigLoadError Config) := do
  match ← firstPresent files folder fileNames with
  | some path => load files path
  | none => return .error (.notFound (folder.join ⟨"lineage.yml"⟩))

end Config

end TableLineage
