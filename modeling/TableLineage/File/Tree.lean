import TableLineage.File.Access
import TableLineage.Order.Ascending

/-!
# File trees

A file tree holds files, folders and symbolic links in memory.  A path is followed from the root
component by component; every link that is met is replaced by its target, and at most forty links
are followed.
-/

namespace TableLineage

/-- What stands at a place of a file tree. -/
inductive FileNode where
  | file (bytes : List UInt8)
  | link (target : Path)
  | folder
  deriving DecidableEq, Repr

/-- A tree of files: what stands at each list of names from the root on. -/
structure FileTree where
  nodes : List (List String × FileNode)
  deriving DecidableEq, Repr

/-- The end of a path in a file tree. -/
inductive Place where
  | present (names : List String) (node : FileNode)
  /-- Nothing stands there, in a folder of the tree. -/
  | vacant (names : List String)
  deriving DecidableEq, Repr

namespace FileTree

/-- The tree with nothing but the root folder. -/
def empty : FileTree :=
  ⟨[]⟩

/-- The node at a place; the root is a folder. -/
def node? (tree : FileTree) (names : List String) : Option FileNode :=
  if names = [] then some .folder else tree.nodes.lookup names

/-- The tree with a node in place of what stands there. -/
def put (tree : FileTree) (names : List String) (node : FileNode) : FileTree :=
  ⟨(names, node) :: tree.nodes.filter (·.1 != names)⟩

/-- The tree with folders at the places of all starts of a list of names where nothing stands. -/
def withFolders (tree : FileTree) (names : List String) : FileTree :=
  (List.range names.length).foldl (fun tree count =>
    let start := names.take (count + 1)
    if (tree.node? start).isSome then tree else tree.put start .folder) tree

/-! ## Following paths -/

/-- The largest number of links that are followed on the way to a place. -/
def linkLimit : Nat :=
  40

/-- Follows components from a folder of the tree.  A link at the end is followed if `last` holds. -/
def walk (tree : FileTree) (last : Bool) (links : Nat) (folder : List String)
    (todo : List PathComponent) : Except FileFailure Place :=
  match todo with
  | [] => .ok (.present folder .folder)
  | .root :: rest => walk tree last links [] rest
  | .here :: rest => walk tree last links folder rest
  | .parent :: rest => walk tree last links folder.dropLast rest
  | .name name :: rest =>
    let names := folder ++ [name]
    match tree.node? names, rest with
    | none, [] => .ok (.vacant names)
    | none, _ :: _ => .error .missing
    | some (.file bytes), [] => .ok (.present names (.file bytes))
    | some (.file _), _ :: _ => .error .notFolder
    | some .folder, rest => walk tree last links names rest
    | some (.link target), rest =>
      if rest = [] ∧ !last then .ok (.present names (.link target))
      else match links with
        | 0 => .error .tooManyLinks
        | links + 1 => walk tree last links folder (target.components ++ rest)
termination_by (links, todo.length)

/-- Whether the text of a path says that it leads to a folder. -/
def saysFolder (path : Path) : Bool :=
  let text := path.text.toList.reverse
  ['/'].isPrefixOf text || ['.', '/'].isPrefixOf text

/-- The place to which a path leads from a folder. -/
def locate (tree : FileTree) (current : Path) (path : Path) (last : Bool) :
    Except FileFailure Place :=
  if path.text = "" then .error .missing
  else match tree.walk last linkLimit [] (current.join path).components with
    | .ok (.present names (.file bytes)) =>
      if saysFolder path then .error .notFolder else .ok (.present names (.file bytes))
    | result => result

/-! ## Operations -/

/-- Whether a path leads to something. -/
def isPresent (tree : FileTree) (current path : Path) : Bool :=
  match tree.locate current path true with
  | .ok (.present _ _) => true
  | _ => false

/-- Whether a path leads to a folder. -/
def isFolder (tree : FileTree) (current path : Path) : Bool :=
  match tree.locate current path true with
  | .ok (.present _ .folder) => true
  | _ => false

/-- The content of a file. -/
def read (tree : FileTree) (current path : Path) : Except FileFailure (List UInt8) :=
  match tree.locate current path true with
  | .ok (.present _ (.file bytes)) => .ok bytes
  | .ok (.present _ _) => .error .isFolder
  | .ok (.vacant _) => .error .missing
  | .error failure => .error failure

/-- The tree in which a file has a content. -/
def write (tree : FileTree) (current path : Path) (bytes : List UInt8) :
    Except FileFailure FileTree :=
  match tree.locate current path true with
  | .ok (.present names (.file _)) => .ok (tree.put names (.file bytes))
  | .ok (.present _ _) => .error .isFolder
  | .ok (.vacant names) =>
    if saysFolder path then .error .isFolder else .ok (tree.put names (.file bytes))
  | .error failure => .error failure

/-- The tree with a folder at a place where nothing stands. -/
def createOneFolder (tree : FileTree) (current path : Path) : Except FileFailure FileTree :=
  match tree.locate current path false with
  | .ok (.present _ _) => .error .alreadyExists
  | .ok (.vacant names) => .ok (tree.put names .folder)
  | .error failure => .error failure

/-- The tree with a folder and those that it is in; at most `fuel` folders are tried. -/
def createFolderFrom (tree : FileTree) (current : Path) : Nat → Path → Except FileFailure FileTree
  | 0, _ => .error .missing
  | fuel + 1, path =>
    if path.text = "" then .ok tree
    else match tree.createOneFolder current path with
      | .ok tree => .ok tree
      | .error .missing =>
        match path.parent? with
        | none => .error .missing
        | some parent =>
          match createFolderFrom tree current fuel parent with
          | .error failure => .error failure
          | .ok tree =>
            match tree.createOneFolder current path with
            | .ok tree => .ok tree
            | .error failure => if tree.isFolder current path then .ok tree else .error failure
      | .error failure => if tree.isFolder current path then .ok tree else .error failure

/-- The tree with a folder and those that it is in. -/
def createFolder (tree : FileTree) (current path : Path) : Except FileFailure FileTree :=
  tree.createFolderFrom current (path.components.length + 1) path

/-- The tree with a copy of a file.  The target is emptied first, so that a copy of a file onto
itself leaves it empty. -/
def copy (tree : FileTree) (current source target : Path) : Except FileFailure FileTree := do
  let _ ← tree.read current source
  let emptied ← tree.write current target []
  emptied.write current target (← emptied.read current source)

/-- The names in a folder, in ascending order. -/
def namesIn (tree : FileTree) (folder : List String) : List String :=
  Order.ascending (tree.nodes.filterMap fun (names, _) =>
    if names.dropLast = folder then names.getLast? else none)

/-- The entries of the folder to which a path leads, with the relative path `prior` of that folder
in the one that is listed.  Folders are listed to a depth of at most `fuel`. -/
def entriesAt (tree : FileTree) (current : Path) (wanted : Path → Bool) :
    (fuel : Nat) → (folder prior : Path) → List (String × Listing)
  | 0, _, _ => []
  | fuel + 1, folder, prior =>
    match tree.locate current folder true with
    | .ok (.present names .folder) =>
      (tree.namesIn names).map fun name =>
        let path := folder.join ⟨name⟩
        let relative := prior.join ⟨name⟩
        if !tree.isFolder current path then (name, .file)
        else if wanted relative then
          (name, .folder (entriesAt tree current wanted fuel path relative))
        else (name, .folder [])
    | _ => []

/-- The entries of a folder. -/
def list (tree : FileTree) (current path : Path) (wanted : Path → Bool) :
    Except FileFailure (List (String × Listing)) :=
  match tree.locate current path true with
  | .ok (.present _ .folder) =>
    .ok (tree.entriesAt current wanted ((linkLimit + 1) * (tree.nodes.length + 1)) path ⟨""⟩)
  | .ok (.present _ _) => .error .notFolder
  | .ok (.vacant _) => .error .missing
  | .error failure => .error failure

/-! ## Access -/

/-- An operation that changes the tree unless it fails. -/
def change (operation : FileTree → Except FileFailure FileTree) :
    StateM FileTree (Except FileFailure Unit) := do
  match operation (← get) with
  | .ok tree =>
    set tree
    return .ok ()
  | .error failure => return .error failure

/-- The access to the files of a tree with a current folder. -/
def access (current : Path) : FileAccess (StateM FileTree) where
  currentFolder := return current
  isPresent path := return (← get).isPresent current path
  isFolder path := return (← get).isFolder current path
  read path := return (← get).read current path
  write path bytes := change (·.write current path bytes)
  createFolder path := change (·.createFolder current path)
  copy source target := change (·.copy current source target)
  list path wanted := return (← get).list current path wanted

end FileTree

end TableLineage
