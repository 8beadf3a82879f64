import TableLineage.Command.Options
import TableLineage.Graph.Reach

/-!
# Commands and their arguments

There are three commands: `lineage` builds the graph and writes it, `parse` lists what each file
reads, and `render` turns a drawing into data.  Two options belong to all commands and can be given
before or after the command's name.
-/

namespace TableLineage.Command

/-- The options of all commands. -/
structure GlobalArguments where
  verbose : Bool
  /-- The path of the configuration. -/
  config : Option String
  deriving DecidableEq, Repr

/-- The form in which a graph is shown. -/
inductive GraphFormat where
  | mermaid
  | json
  | dot
  | table
  deriving DecidableEq, Repr

/-- The arguments of `lineage`. -/
structure LineageArguments where
  sqlDir : Option String
  outputDir : Option String
  format : Option GraphFormat
  /-- The table whose lineage is shown. -/
  model : Option String
  direction : Direction
  dialect : Option String
  noWrite : Bool
  failOnSkip : Bool
  deriving DecidableEq, Repr

/-- The form in which the reads of files are listed. -/
inductive ListFormat where
  | deps
  | json
  deriving DecidableEq, Repr

/-- The arguments of `parse`. -/
structure ParseArguments where
  sqlDir : Option String
  output : ListFormat
  dialect : Option String
  deriving DecidableEq, Repr

/-- The arguments of `render`. -/
structure RenderArguments where
  input : String
  output : Option String
  deriving DecidableEq, Repr

/-- A command with its arguments. -/
inductive Task where
  | lineage (arguments : LineageArguments)
  | parse (arguments : ParseArguments)
  | render (arguments : RenderArguments)
  deriving DecidableEq, Repr

/-- The arguments of the program. -/
structure Arguments where
  globals : GlobalArguments
  task : Task
  deriving DecidableEq, Repr

/-! ## Options of the commands -/

/-- The options of all commands. -/
def globalSpecs : List OptionSpec :=
  [⟨"verbose", some 'v', false⟩, ⟨"config", some 'c', true⟩]

/-- The options of `lineage`. -/
def lineageSpecs : List OptionSpec :=
  [⟨"sql-dir", some 's', true⟩, ⟨"output-dir", some 'o', true⟩, ⟨"format", some 'f', true⟩,
    ⟨"model", some 'm', true⟩, ⟨"direction", some 'd', true⟩, ⟨"dialect", none, true⟩,
    ⟨"no-write", none, false⟩, ⟨"fail-on-skip", none, false⟩]

/-- The options of `parse`. -/
def parseSpecs : List OptionSpec :=
  [⟨"sql-dir", some 's', true⟩, ⟨"output", some 'o', true⟩, ⟨"dialect", none, true⟩]

/-- The options of `render`. -/
def renderSpecs : List OptionSpec :=
  [⟨"input", some 'i', true⟩, ⟨"output", some 'o', true⟩]

/-- The names of graph formats. -/
def graphFormats : List (String × GraphFormat) :=
  [("mermaid", .mermaid), ("json", .json), ("dot", .dot), ("table", .table)]

/-- The names of list formats. -/
def listFormats : List (String × ListFormat) :=
  [("deps", .deps), ("json", .json)]

/-- The names of directions. -/
def directions : List (String × Direction) :=
  [("upstream", .reads), ("downstream", .readers), ("both", .both)]

/-! ## Reading the arguments -/

/-- The arguments of `lineage` from its options. -/
def LineageArguments.ofOptions (given : List GivenOption) : Except UsageError LineageArguments := do
  let format ← choiceOf? given "format" graphFormats
  let direction ← choiceOf? given "direction" directions
  return {
    sqlDir := valueOf? given "sql-dir"
    outputDir := valueOf? given "output-dir"
    format
    model := valueOf? given "model"
    direction := direction.getD .both
    dialect := valueOf? given "dialect"
    noWrite := isGiven given "no-write"
    failOnSkip := isGiven given "fail-on-skip" }

/-- The arguments of `parse` from its options. -/
def ParseArguments.ofOptions (given : List GivenOption) : Except UsageError ParseArguments := do
  let output ← choiceOf? given "output" listFormats
  return {
    sqlDir := valueOf? given "sql-dir"
    output := output.getD .deps
    dialect := valueOf? given "dialect" }

/-- The arguments of `render` from its options. -/
def RenderArguments.ofOptions (given : List GivenOption) : Except UsageError RenderArguments :=
  match valueOf? given "input" with
  | some input => .ok ⟨input, valueOf? given "output"⟩
  | none => .error (.missingOption "input")

/-- The options of the command with a given name, and the task that its options make. -/
def command? (name : String) :
    Option (List OptionSpec × (List GivenOption → Except UsageError Task)) :=
  if name = "lineage" then
    some (lineageSpecs, fun given => (LineageArguments.ofOptions given).map .lineage)
  else if name = "parse" then
    some (parseSpecs, fun given => (ParseArguments.ofOptions given).map .parse)
  else if name = "render" then
    some (renderSpecs, fun given => (RenderArguments.ofOptions given).map .render)
  else
    none

/-- The arguments that words make.  Of a global option given on both sides of the command's name,
the later value counts. -/
def Arguments.ofWords (words : List String) : Except UsageError Arguments := do
  let before ← LineOptions.ofWords globalSpecs words
  match before.rest with
  | [] => throw .missingCommand
  | name :: words =>
    match command? name with
    | none => throw (.unknownCommand name)
    | some (specs, taskOf) =>
      let after ← LineOptions.ofWords (globalSpecs ++ specs) words
      if let some word := after.rest.head? then
        throw (.unexpectedWord word)
      let task ← taskOf after.given
      let given := after.given ++ before.given
      return ⟨⟨isGiven given "verbose", valueOf? given "config"⟩, task⟩

end TableLineage.Command
