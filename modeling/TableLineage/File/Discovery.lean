import TableLineage.File.Access

/-!
# Finding SQL files

The SQL files of a folder are those with the extension `sql`, in any letter case, in the folder and
in the folders within it.  Folders whose names start with a dot are left out, as are configured
paths and everything under them.
-/

namespace TableLineage

/-! ## What is left out -/

/-- The text by which paths are compared with those to leave out: slashes at the end do not count
either. -/
def Path.folderKey (text : String) : String :=
  String.ofList ((Path.key text).toList.reverse.dropWhile (· == '/')).reverse

/-- Whether a key is a configured one or lies under it. -/
def liesUnder (configured key : String) : Bool :=
  key == configured || (configured.toList ++ ['/']).isPrefixOf key.toList

/-- Whether a path is left out by itself. -/
def isExcluded (exclude : List String) (path : Path) : Bool :=
  exclude.any fun configured => liesUnder (Path.folderKey configured) (Path.folderKey path.text)

/-- Whether a name is that of a hidden folder. -/
def isHidden (name : String) : Bool :=
  name.toList.head? == some '.'

/-- Whether a path is that of a SQL file. -/
def Path.isSql (path : Path) : Bool :=
  path.extension?.any fun extension => extension.map Char.toLower == "sql"

/-- Whether a folder is looked into. -/
def isEntered (exclude : List String) (path : Path) : Bool :=
  !isExcluded exclude path && !path.fileName?.any isHidden

/-! ## Findings -/

/-- What the search meets at a path. -/
inductive Finding where
  | sqlFile
  | excluded
  | unreadable (cause : String)
  deriving DecidableEq, Repr

mutual

/-- The findings at an entry of a folder. -/
def entryFindings (exclude : List String) (path : Path) (name : String) :
    Listing → List (Path × Finding)
  | .file => if path.isSql then [(path, .sqlFile)] else []
  | .folder entries => if isHidden name then [] else folderFindings exclude path entries
  | .unreadable cause => if isHidden name then [] else [(path, .unreadable cause)]

/-- The findings in a folder. -/
def folderFindings (exclude : List String) (folder : Path) :
    List (String × Listing) → List (Path × Finding)
  | [] => []
  | (name, entry) :: entries =>
    let path := folder.join ⟨name⟩
    (if isExcluded exclude path then [(path, .excluded)]
      else entryFindings exclude path name entry) ++
      folderFindings exclude folder entries

end

/-! ## Discovery -/

/-- The SQL files of a folder, by their paths within it. -/
structure Discovery where
  files : List Path
  /-- The folders that could not be listed, with the causes. -/
  unreadable : List (Path × String)
  deriving DecidableEq, Repr

/-- The SQL files among the entries of a folder. -/
def discover (exclude : List String) (entries : List (String × Listing)) : Discovery :=
  let findings := folderFindings exclude ⟨""⟩ entries
  { files := Path.sortBy id (findings.filterMap fun (path, finding) =>
      if finding = .sqlFile then some path else none)
    unreadable := Path.sortBy (·.1) (findings.filterMap fun (path, finding) =>
      match finding with
      | .unreadable cause => some (path, cause)
      | _ => none) }

/-- The log of a discovery in the folder `root`. -/
def discoveryLog (root : Path) (exclude : List String) (entries : List (String × Listing)) :
    List LogRecord :=
  (folderFindings exclude ⟨""⟩ entries).filterMap fun (path, finding) =>
    match finding with
    | .sqlFile => none
    | .excluded => some (.debug s!"excluded {path.text}")
    | .unreadable cause =>
      let folder := root.join path
      some (.warn s!"cannot read directory {folder.text}: {cause}")

/-- Why a folder cannot be searched. -/
inductive DiscoveryError where
  | notFound (folder : Path)
  | unreadable (folder : Path) (failure : FileFailure)
  deriving DecidableEq, Repr

/-- The texts of an error and of its cause. -/
def DiscoveryError.messages : DiscoveryError → List String
  | notFound folder => [s!"[E003] SQL folder not found: {folder.text}"]
  | unreadable folder failure =>
    let cause := failure.message
    [s!"[E008] Failed to access '{folder.text}': {cause}", cause]

/-- The entries of a folder as far as SQL files are looked for in them. -/
def FileAccess.listSql {m : Type → Type} [Monad m] (files : FileAccess m) (exclude : List String)
    (folder : Path) : m (Except DiscoveryError (List (String × Listing))) := do
  if !(← files.isFolder folder) then
    return .error (.notFound folder)
  match ← files.list folder (isEntered exclude) with
  | .error failure => return .error (.unreadable folder failure)
  | .ok entries => return .ok entries

end TableLineage
