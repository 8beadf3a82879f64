import TableLineage.Text.Search

/-!
# Paths

A path is the text of a path with slashes.  Its components leave out what does not count: repeated
slashes, a slash at the end, and `.` anywhere but at the start of a relative path.  Paths are
ordered by their components, so that `a/b` stands before `a-b`.
-/

namespace TableLineage

/-- A component of a path.  Components of different kinds are in the order of this list. -/
inductive PathComponent where
  | root
  | here
  | parent
  | name (text : String)
  deriving DecidableEq, Repr

namespace PathComponent

/-- The place of a component's kind in the order. -/
def rank : PathComponent → Nat
  | root => 0
  | here => 1
  | parent => 2
  | name _ => 3

/-- The text of a name. -/
def text : PathComponent → String
  | name text => text
  | _ => ""

/-- The component of a piece between slashes, if it counts. -/
def ofPiece? (piece : String) : Option PathComponent :=
  if piece = "" ∨ piece = "." then none
  else if piece = ".." then some parent
  else some (name piece)

/-- Whether a component is before another. -/
def less (a b : PathComponent) : Bool :=
  decide (a.rank < b.rank) || (a.rank == b.rank && decide (a.text < b.text))

end PathComponent

/-- A path. -/
structure Path where
  text : String
  deriving DecidableEq, Repr

namespace Path

/-- Whether a path starts at the root. -/
def isAbsolute (path : Path) : Bool :=
  path.text.toList.head? == some '/'

/-- Whether a path starts with a `.` of its own. -/
def startsHere (path : Path) : Bool :=
  path.text == "." || ['.', '/'].isPrefixOf path.text.toList

/-- The components of a path. -/
def components (path : Path) : List PathComponent :=
  let pieces := (Text.splitAtChar '/' path.text).filterMap PathComponent.ofPiece?
  if path.isAbsolute then .root :: pieces
  else if path.startsHere then .here :: pieces
  else pieces

/-- Whether a list of components is before another, a shorter list being before its extensions. -/
def lessComponents : List PathComponent → List PathComponent → Bool
  | _, [] => false
  | [], _ :: _ => true
  | a :: as, b :: bs => a.less b || (a == b && lessComponents as bs)

/-- Whether a path is not after another. -/
def le (a b : Path) : Bool :=
  !lessComponents b.components a.components

/-- Whether two paths have the same components. -/
def same (a b : Path) : Bool :=
  a.components == b.components

/-- Values in the order of their paths; values with the same path keep their order. -/
def sortBy {α : Type} (path : α → Path) (values : List α) : List α :=
  values.mergeSort fun a b => (path a).le (path b)

/-! ## Names -/

/-- The last component, if it is a name. -/
def fileName? (path : Path) : Option String :=
  match path.components.getLast? with
  | some (.name text) => some text
  | _ => none

/-- A file name cut at its last dot: what is before the dot and what is after it.  A name without a
dot, or with its only dot at the start, is not cut. -/
def cutName (name : String) : String × Option String :=
  let backwards := name.toList.reverse
  let after := backwards.takeWhile (· != '.')
  match backwards.drop after.length with
  | _ :: before =>
    if before.isEmpty then (name, none)
    else (String.ofList before.reverse, some (String.ofList after.reverse))
  | [] => (name, none)

/-- The file name without its extension. -/
def stem? (path : Path) : Option String :=
  path.fileName?.map fun name => (cutName name).1

/-- The part of the file name after its last dot. -/
def extension? (path : Path) : Option String :=
  path.fileName?.bind fun name => (cutName name).2

/-! ## Joining and cutting -/

/-- A path taken from within a folder; an absolute path is taken as it is. -/
def join (folder : Path) (path : Path) : Path :=
  if path.isAbsolute then path
  else if folder.text = "" ∨ folder.text.toList.getLast? = some '/' then ⟨folder.text ++ path.text⟩
  else ⟨folder.text ++ "/" ++ path.text⟩

/-- The path of the folder that holds the path's last component, as it is written; there is none
for the root and the empty path. -/
def parent? (path : Path) : Option Path :=
  let start := if path.isAbsolute || path.startsHere then 1 else 0
  let text := path.text.toList
  let counts (piece : List Char) : Bool := piece != [] && piece != ['.']
  let trim (pieces : List (List Char)) := (pieces.reverse.dropWhile fun p => !counts p).reverse
  let pieces := trim (Text.splitOnP (· == '/') (text.drop start))
  match pieces with
  | [] => if path.startsHere then some ⟨""⟩ else none
  | _ :: _ =>
    let rest := (trim pieces.dropLast).map String.ofList
    some ⟨String.ofList (text.take start) ++ "/".intercalate rest⟩

/-- The text with slashes only and without `./` at its start, by which files are configured. -/
def withoutDotSlash : List Char → List Char
  | [] => []
  | c :: rest =>
    match rest with
    | '/' :: after => if c = '.' then withoutDotSlash after else c :: rest
    | _ => c :: rest

/-- The text by which configured paths are compared: backslashes count as slashes, and `./` at the
start does not count. -/
def key (text : String) : String :=
  String.ofList (withoutDotSlash (text.toList.map fun c => if c = '\\' then '/' else c))

end Path

end TableLineage
