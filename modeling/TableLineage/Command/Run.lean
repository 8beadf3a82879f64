import TableLineage.Command.Arguments
import TableLineage.Command.Session
import TableLineage.Command.Workspace
import TableLineage.Diagram.Dot
import TableLineage.Diagram.Markdown
import TableLineage.Diagram.Mermaid
import TableLineage.Graph.Basic
import TableLineage.Text.Json

/-!
# The commands

The words of a command line are read as arguments, and the command that they name is run on the
files that it is given access to.

* `lineage` writes the whole graph to two files, one of which can be copied to a further folder.
  The graph, or the neighbourhood of one table, can be shown on the output, which then receives
  nothing else.  As a table, a graph has a line for every node, with its kind, the number of tables
  that it reads and the number of tables that read it.
* `parse` shows for every file the table that it produces, its common table expressions and the
  tables that it reads.
* `render` reads a diagram from a Markdown file and writes it as JSON, to a file or to the output.
-/

namespace TableLineage.Command

variable {m : Type → Type} [Monad m]

/-! ## Graphs as tables -/

/-- A text filled up with spaces at its end. -/
def padEnd (width : Nat) (text : String) : String :=
  text ++ String.ofList (List.replicate (width - text.length) ' ')

/-- A text filled up with spaces at its start. -/
def padStart (width : Nat) (text : String) : String :=
  String.ofList (List.replicate (width - text.length) ' ') ++ text

/-- A line of a table. -/
def tableLine (id kind reads readBy : String) : String :=
  padEnd 40 id ++ " " ++ padEnd 8 kind ++ " " ++ padStart 8 reads ++ " " ++ padStart 10 readBy

/-- The line of a node. -/
def nodeLine (graph : LineageGraph) (node : TableNode) : String :=
  let id := node.id.value
  tableLine id node.kind.name (toString (graph.directReads id).length)
    (toString (graph.directReaders id).length)

/-- The lines of the table of a graph. -/
def tableLines (graph : LineageGraph) : List String :=
  if graph.isEmpty then ["No tables found."]
  else
    [tableLine "TABLE" "KIND" "READS" "READ BY", String.ofList (List.replicate 69 '-')] ++
      graph.sortedNodes.map (nodeLine graph) ++
      ["", s!"{graph.nodeCount} table(s), {graph.dependencyCount} dependency edge(s)."]

/-! ## The command `lineage` -/

/-! ### Files -/

/-- Writes a diagram into a folder; the paths of the files that were written. -/
def writeDiagram (files : FileAccess m) (diagram : Diagram) (folder : Path) :
    Session m (List Path) := do
  let markdown := folder.join ⟨"lineage.md"⟩
  let json := folder.join ⟨"lineage.json"⟩
  Session.require s!"failed to create {folder.text}" (files.createFolder folder)
  Session.require s!"failed to write {markdown.text}"
    (files.writeText markdown (Mermaid.fenced diagram.toMermaid))
  Session.require s!"failed to write {json.text}" (files.writeText json diagram.toJson.pretty)
  return [markdown, json]

/-- Copies the data file of a folder to another one; the path of the copy, unless the folders are
the same. -/
def copyDiagram (files : FileAccess m) (folder target : Path) : Session m (List Path) := do
  if target.same folder then
    return []
  let copied := target.join ⟨"lineage.json"⟩
  Session.require s!"failed to create {target.text}" (files.createFolder target)
  Session.require s!"failed to write {copied.text}"
    (files.copy (folder.join ⟨"lineage.json"⟩) copied)
  return [copied]

/-- Writes the files of a graph. -/
def writeGraph (files : FileAccess m) (workspace : Workspace) (graph : LineageGraph) :
    Session m (List Path) := do
  let written ← writeDiagram files (.ofGraph graph) workspace.outputDir
  match workspace.uiDir with
  | none => return written
  | some target => return written ++ (← copyDiagram files workspace.outputDir target)

/-! ### Output -/

/-- The text of a graph in a format. -/
def graphText (graph : LineageGraph) : GraphFormat → String
  | .mermaid => (Diagram.ofGraph graph).toMermaid ++ "\n"
  | .json => (Diagram.ofGraph graph).toJson.pretty ++ "\n"
  | .dot => (Diagram.ofGraph graph).toDot
  | .table => String.join ((tableLines graph).map (· ++ "\n"))

/-- The part of a graph to show: all of it, or the neighbourhood of one table. -/
def selectGraph (graph : LineageGraph) (model : Option String) (direction : Direction) :
    Session m LineageGraph :=
  match model with
  | none => return graph
  | some model =>
    match TableId.canonical? model with
    | none => throw (.error [s!"invalid table name '{model}'"])
    | some id =>
      match graph.neighbourhood id.value direction with
      | .ok part => return part
      | .error error => Session.fail "failed to select lineage" [error.message]

/-- Says that a file was written, on the diagnostics if a graph is shown on the output. -/
def reportWritten (shown : Bool) (path : Path) : Session m Unit :=
  let line := "  ✓ " ++ path.text
  if shown then Session.note line else Session.printLine line

/-- Runs the command. -/
def runLineage (files : FileAccess m) (globals : GlobalArguments) (arguments : LineageArguments) :
    Session m Unit := do
  let workspace ← openWorkspace files globals arguments.sqlDir arguments.outputDir
  let scan ← scanWorkspace files globals.verbose workspace arguments.dialect
  if !arguments.noWrite then
    let written ← writeGraph files workspace scan.graph
    written.forM (reportWritten arguments.format.isSome)
  if let some format := arguments.format then
    Session.print (graphText (← selectGraph scan.graph arguments.model arguments.direction) format)
  noteSummary scan.summary
  if arguments.failOnSkip && scan.summary.hasSkips then
    throw (.exit 1)

/-! ## The command `parse` -/

/-- What a file contributes, as JSON. -/
def fileJson (file : FileLineage) : Json :=
  .object [("path", .string file.path.text), ("table", .string file.table.value),
    ("ctes", .array (file.ctes.map .string)),
    ("upstream", .array (file.reads.map fun id => .string id.value))]

/-- The lines on what a file contributes. -/
def fileLines (file : FileLineage) : List String :=
  let ctes := if file.ctes.isEmpty then [] else ["  ctes: " ++ ", ".intercalate file.ctes]
  let reads :=
    if file.reads.isEmpty then "(none)" else ", ".intercalate (file.reads.map (·.value))
  [file.path.text ++ " -> " ++ file.table.value] ++ ctes ++ ["  reads: " ++ reads]

/-- Writes what each file contributes to the output. -/
def printFiles (files : List FileLineage) : ListFormat → Session m Unit
  | .deps => (files.flatMap fileLines).forM Session.printLine
  | .json => Session.printLine (Json.array (files.map fileJson)).pretty

/-- Runs the command. -/
def runParse (files : FileAccess m) (globals : GlobalArguments) (arguments : ParseArguments) :
    Session m Unit := do
  let workspace ← openWorkspace files globals arguments.sqlDir none
  let scan ← scanWorkspace files globals.verbose workspace arguments.dialect
  if globals.verbose then
    Session.note s!"[verbose] Parsed {scan.files.length} SQL files"
  printFiles scan.files arguments.output
  noteSummary scan.summary
  scan.summary.warnings.forM fun warning =>
    Session.note ("  [warn] " ++ warning.path.text ++ ": " ++ warning.warning.message)

/-! ## The command `render` -/

/-- Runs the command. -/
def runRender (files : FileAccess m) (globals : GlobalArguments) (arguments : RenderArguments) :
    Session m Unit := do
  let input := arguments.input
  match ← Session.access (files.mermaidBlock ⟨input⟩) with
  | .error error => Session.fail s!"failed to read lineage from {input}" error.messages
  | .ok block =>
    Session.log globals.verbose ((Flowchart.notes block).map .debug)
    let json := (Flowchart.parse block).toJson.pretty
    match arguments.output with
    | none => Session.printLine json
    | some output =>
      Session.require s!"failed to write {output}" (files.writeText ⟨output⟩ json)

/-! ## Running the program -/

/-- The session of a command. -/
def session (files : FileAccess m) (arguments : Arguments) : Session m Unit :=
  match arguments.task with
  | .lineage options => runLineage files arguments.globals options
  | .parse options => runParse files arguments.globals options
  | .render options => runRender files arguments.globals options

/-- The outcome of a command line, or why it is refused. -/
def run (files : FileAccess m) (words : List String) : m (Except UsageError Outcome) :=
  match Arguments.ofWords words with
  | .error error => return .error error
  | .ok arguments => return .ok (← (session files arguments).run)

/-- The exit code for a command line that is refused. -/
def usageExitCode : Nat :=
  2

end TableLineage.Command
