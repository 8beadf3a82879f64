import TableLineage.Diagram.Payload
import TableLineage.Text.Classes
import TableLineage.Text.Search

/-!
# Reading flowcharts

A flowchart, written by this library or by hand, is read line by line.  A line is an edge between
two ids, a single id, or is passed over.  The kinds of tables are not drawn, so they are inferred: a
table is a model if an edge leads to it, or if it is first met on a line of its own.
-/

namespace TableLineage

namespace Flowchart

/-! ## Ids -/

/-- Whether a character may stand in an id without quotes. -/
def isIdChar (c : Char) : Bool :=
  c.isAlphanum || c == '_' || c == '.' || c == ':'

/-- The id that quoted text stands for. -/
def unescape (text : List Char) : String :=
  Text.replaceAll "#quot;" "\"" (String.ofList text)

/-- The id at the start of the text and the text after it. -/
def id? (text : List Char) : Option (String × List Char) :=
  match text with
  | '"' :: rest =>
    let inside := rest.takeWhile (· != '"')
    match rest.drop inside.length with
    | _ :: after => if inside.isEmpty then none else some (unescape inside, after)
    | [] => none
  | text =>
    let bare := text.takeWhile isIdChar
    if bare.isEmpty then none else some (unescape bare, text.drop bare.length)

/-! ## Lines -/

/-- What a line of a flowchart says. -/
inductive Line where
  /-- A header, a comment or nothing. -/
  | blank
  | edge (source target : String)
  | node (id : String)
  /-- A line that is neither an edge nor an id. -/
  | unknown (text : String)
  deriving DecidableEq, Repr

/-- The text after the blanks at its start. -/
def afterBlanks (text : List Char) : List Char :=
  text.dropWhile Text.isBlank

/-- Whether nothing but blanks and one semicolon is left. -/
def atEnd (text : List Char) : Bool :=
  match afterBlanks text with
  | [] => true
  | c :: rest => c == ';' && rest.all Text.isBlank

/-- The edge or the id that a line without outer blanks holds. -/
def statement? (text : List Char) : Option Line :=
  match id? text with
  | none => none
  | some (source, rest) =>
    match afterBlanks rest with
    | '-' :: '-' :: '>' :: rest =>
      match id? (afterBlanks rest) with
      | some (target, rest) => if atEnd rest then some (.edge source target) else none
      | none => none
    | _ => if atEnd rest then some (.node source) else none

/-- Whether the first word of a line is that of a flowchart's header. -/
def isHeader (text : List Char) : Bool :=
  let first := String.ofList (text.takeWhile fun c => !Text.isBlank c)
  first == "flowchart" || first == "graph"

/-- What a line says. -/
def Line.ofText (text : List Char) : Line :=
  let trimmed := Text.trimWhile Text.isBlank text
  if trimmed.isEmpty || ['%', '%'].isPrefixOf trimmed || isHeader trimmed then .blank
  else (statement? trimmed).getD (.unknown (String.ofList trimmed))

/-- What the lines of a flowchart say. -/
def readLines (text : String) : List Line :=
  (Text.lines text.toList).map Line.ofText

/-! ## Diagrams -/

/-- The kinds of the tables met so far, in the order in which they were met. -/
abbrev Kinds := List (String × NodeKind)

/-- The kinds with that of a table, if it has not been met before. -/
def Kinds.meet (id : String) (kind : NodeKind) (kinds : Kinds) : Kinds :=
  if kinds.any (·.1 == id) then kinds else kinds ++ [(id, kind)]

/-- The kinds with a table that is a model. -/
def Kinds.setModel (id : String) (kinds : Kinds) : Kinds :=
  if kinds.any (·.1 == id) then
    kinds.map fun entry => if entry.1 = id then (id, .model) else entry
  else
    kinds ++ [(id, .model)]

/-- The kinds after a line.  An edge from a table to itself says nothing. -/
def Kinds.afterLine (kinds : Kinds) : Line → Kinds
  | .edge source target =>
    if source = target then kinds else (kinds.meet source .source).setModel target
  | .node id => kinds.meet id .model
  | .blank | .unknown _ => kinds

/-- The edge that a line draws. -/
def Line.edge? : Line → Option DiagramEdge
  | .edge source target => if source = target then none else some ⟨source, target⟩
  | _ => none

/-- The diagram that lines draw, nodes by ascending id and edges in ascending order. -/
def diagramOf (lines : List Line) : Diagram :=
  let kinds := lines.foldl Kinds.afterLine []
  { nodes := (Order.ascending (kinds.map (·.1))).filterMap fun id =>
      (kinds.lookup id).map fun kind => ⟨id, id, kind⟩
    edges := Order.ascending (lines.filterMap Line.edge?) }

/-- The diagram that a flowchart draws. -/
def parse (text : String) : Diagram :=
  diagramOf (readLines text)

/-- The notes on lines that were passed over. -/
def notes (text : String) : List String :=
  (readLines text).filterMap fun line =>
    match line with
    | .unknown text => some s!"ignoring mermaid line: {text}"
    | _ => none

end Flowchart

end TableLineage
