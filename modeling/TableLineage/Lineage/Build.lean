import TableLineage.File.Access
import TableLineage.Graph.Reach
import TableLineage.Lineage.Summary
import TableLineage.Sql.Catalog
import TableLineage.Table.Naming

/-!
# Building the lineage graph

The files are taken in the order of their paths, so that the graph does not depend on the order in
which they were read.  First each file is given its table and all tables are entered in a catalog;
then each file is scanned and its references are resolved against its own common table expressions
and that catalog.
-/

namespace TableLineage

/-! ## Files and their tables -/

/-- A file with the table that it produces. -/
structure NamedSource where
  source : SqlSource
  name : TableName
  id : TableId
  deriving DecidableEq, Repr

/-- The file with its table, if it has one. -/
def NamedSource.ofSource? (naming : TableNaming) (source : SqlSource) : Option NamedSource :=
  (naming source.path).bind fun name => name.id?.map fun id => ⟨source, name, id⟩

/-- The inputs that are sources, in the order of their paths. -/
def sortedSources (inputs : List (Except SourceError SqlSource)) : List SqlSource :=
  Path.sortBy (·.path) (inputs.filterMap fun input => input.toOption)

/-- The inputs that are errors. -/
def inputErrors (inputs : List (Except SourceError SqlSource)) : List SourceError :=
  inputs.filterMap fun input =>
    match input with
    | .ok _ => none
    | .error error => some error

/-- The files with tables, in the order of their paths. -/
def namedSources (naming : TableNaming) (inputs : List (Except SourceError SqlSource)) :
    List NamedSource :=
  (sortedSources inputs).filterMap (NamedSource.ofSource? naming)

/-- The paths of the files without tables, in order. -/
def unnamedPaths (naming : TableNaming) (inputs : List (Except SourceError SqlSource)) :
    List Path :=
  ((sortedSources inputs).filter fun source =>
    (NamedSource.ofSource? naming source).isNone).map (·.path)

/-- The catalog of the tables of all files. -/
def catalogOf (files : List NamedSource) : Sql.ModelCatalog :=
  files.foldl (fun catalog file =>
    catalog.register file.id.value (file.source.stem?.getD file.id.value)) .empty

/-! ## What a file reads -/

/-- A table that a file reads, and its name where it is read. -/
structure TableRead where
  id : TableId
  name : String
  deriving DecidableEq, Repr

/-- The read of another table that a reference of the file `reader` makes. -/
def readOf? (catalog : Sql.ModelCatalog) (reader : TableId) (ctes : Sql.CteScope)
    (reference : Sql.TableReference) : Option TableRead :=
  match (Sql.resolve catalog ctes reference).id? with
  | none => none
  | some id =>
    if id = reader.value then none
    else (TableId.ofString? id).map fun id => ⟨id, reference.display⟩

/-- The reads of a statement in order. -/
def statementReads (catalog : Sql.ModelCatalog) (reader : TableId) (statement : Sql.StatementScan) :
    List TableRead :=
  statement.references.filterMap (readOf? catalog reader statement.ctes)

/-- The reads of a file in order. -/
def fileReads (catalog : Sql.ModelCatalog) (reader : TableId) (scan : Sql.TextScan) :
    List TableRead :=
  scan.statements.flatMap (statementReads catalog reader)

/-- What one file contributes. -/
structure FileLineage where
  path : Path
  /-- The table that the file produces. -/
  table : TableId
  /-- The names of common table expressions, in ascending order. -/
  ctes : List String
  /-- The tables that the file reads, in ascending order. -/
  reads : List TableId
  deriving DecidableEq, Repr

/-- What a file with a given scan contributes. -/
def FileLineage.ofScan (catalog : Sql.ModelCatalog) (file : NamedSource) (scan : Sql.TextScan) :
    FileLineage where
  path := file.source.path
  table := file.id
  ctes := Order.ascending (scan.statements.flatMap fun statement => statement.ctes.names)
  reads := Order.ascending ((fileReads catalog file.id scan).map (·.id))

/-! ## The graph -/

/-- The graph of the tables of files, before any file is read. -/
def modelGraph (files : List NamedSource) : LineageGraph :=
  files.foldl (fun graph file => graph.addModel file.id file.name.value) .empty

/-- The graph in which the file that produces `table` reads a further table. -/
def addRead (table : TableId) (graph : LineageGraph) (read : TableRead) : LineageGraph :=
  (graph.addSource read.id read.name).addDependency read.id.value table.value

/-- The graph with the reads of a file. -/
def addReads (catalog : Sql.ModelCatalog) (graph : LineageGraph)
    (file : NamedSource × Sql.TextScan) : LineageGraph :=
  (fileReads catalog file.1.id file.2).foldl (addRead file.1.id) graph

/-- The files with their scans. -/
def scanFiles (dialect : Sql.Dialect) (files : List NamedSource) :
    List (NamedSource × Sql.TextScan) :=
  files.map fun file => (file, Sql.scan dialect file.source.sql)

/-- The graph of files and their scans. -/
def readGraph (files : List NamedSource) (scans : List (NamedSource × Sql.TextScan)) :
    LineageGraph :=
  scans.foldl (addReads (catalogOf files)) (modelGraph files)

/-- The outcome of a scan of many files. -/
structure LineageScan where
  graph : LineageGraph
  summary : ScanSummary
  /-- What each file contributes, in the order of the paths. -/
  files : List FileLineage

/-- The lineage of SQL files in a dialect.  Inputs that are errors, and files without tables, are
skipped. -/
def buildLineage (dialect : Sql.Dialect) (naming : TableNaming)
    (inputs : List (Except SourceError SqlSource)) : LineageScan :=
  let named := namedSources naming inputs
  let scans := scanFiles dialect named
  let graph := (readGraph named scans).promoteTargets
  { graph
    files := scans.map fun (file, scan) => .ofScan (catalogOf named) file scan
    summary := {
      found := inputs.length
      processed := named.length
      skipped := Path.sortBy (·.path)
        ((inputErrors inputs).map SkippedFile.ofError ++
          (unnamedPaths naming inputs).map fun path => ⟨path, .unnamed⟩)
      warnings := scans.flatMap fun (file, scan) =>
        scan.warnings.map fun warning => ⟨file.source.path, warning⟩
      cycles := graph.cycles } }

/-! ## The log of a build -/

/-- The warnings about files that produce a table which an earlier file produces too. -/
def repeatedTables (seen : List TableId) : List NamedSource → List LogRecord
  | [] => []
  | file :: rest =>
    (if file.id ∈ seen then
      [.warn (s!"'{file.id.value}' is produced by more than one file " ++
        s!"(again by {file.source.path.text})")]
    else
      []) ++ repeatedTables (file.id :: seen) rest

/-- The records on the resolution of a reference. -/
def resolutionRecords (catalog : Sql.ModelCatalog) (reader : TableId) (ctes : Sql.CteScope)
    (reference : Sql.TableReference) : List LogRecord :=
  (Sql.ambiguityNote? catalog ctes reference).toList.map LogRecord.debug ++
    match (Sql.resolve catalog ctes reference).id? with
    | none => [.debug s!"{reader.value}: '{reference.display}' is a CTE"]
    | some id =>
        if id = reader.value then [.debug s!"{reader.value}: ignoring self-reference"] else []

/-- The records on a file. -/
def fileRecords (catalog : Sql.ModelCatalog) (file : NamedSource) (scan : Sql.TextScan) :
    List LogRecord :=
  scan.notes.map LogRecord.debug ++
    scan.warnings.map (fun warning =>
      .warn s!"{file.source.path.text}: {warning.message}") ++
    scan.statements.flatMap fun statement =>
      statement.references.flatMap (resolutionRecords catalog file.id statement.ctes)

/-- The record on sources that were found to be models. -/
def promotionRecords (count : Nat) : List LogRecord :=
  if 0 < count then [.debug s!"promoted {count} tables to models"] else []

/-- The record on a group of tables that depend on each other. -/
def cycleRecord (cycle : List TableId) : LogRecord :=
  .warn ("circular lineage: " ++ " -> ".intercalate (cycle.map (·.value)))

/-- The log of `buildLineage`. -/
def buildLog (dialect : Sql.Dialect) (naming : TableNaming)
    (inputs : List (Except SourceError SqlSource)) : List LogRecord :=
  let named := namedSources naming inputs
  let scans := scanFiles dialect named
  let graph := readGraph named scans
  (inputErrors inputs).map (fun error => .warn s!"skipping file: {error.message}") ++
    (unnamedPaths naming inputs).map (fun path => .warn s!"skipping {path.text}: no table name") ++
    repeatedTables [] named ++
    scans.flatMap (fun (file, scan) => fileRecords (catalogOf named) file scan) ++
    promotionRecords graph.promotedCount ++
    graph.promoteTargets.cycles.map cycleRecord

end TableLineage
