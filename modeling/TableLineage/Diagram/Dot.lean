import TableLineage.Diagram.Payload
import TableLineage.Text.Search

/-!
# Graphviz drawings

The drawing has a line for every node, sources grey and models green, and a line for every edge.
Within quotes, a backslash is written before every backslash and double quote.
-/

namespace TableLineage

namespace Dot

/-- The written form of a text between quotes. -/
def escape (text : String) : String :=
  String.ofList (text.toList.flatMap fun c => if c = '\\' ∨ c = '"' then ['\\', c] else [c])

/-- A text between quotes. -/
def quoted (text : String) : String :=
  "\"" ++ escape text ++ "\""

/-- The fill colour of a kind of table. -/
def colour : NodeKind → String
  | .source => "#d3d3d3"
  | .model => "#a8e6a1"

/-- The line of a node. -/
def nodeLine (node : DiagramNode) : String :=
  "    " ++ quoted node.id ++ " [label=" ++ quoted node.name ++ " fillcolor=\"" ++
    colour node.kind ++ "\"];\n"

/-- The line of an edge. -/
def edgeLine (edge : DiagramEdge) : String :=
  "    " ++ quoted edge.source ++ " -> " ++ quoted edge.target ++ ";\n"

end Dot

/-- The drawing of a diagram. -/
def Diagram.toDot (diagram : Diagram) : String :=
  "digraph lineage \x7b\n    rankdir=LR;\n    node [shape=box, style=filled];\n\n" ++
    String.join (diagram.nodes.map Dot.nodeLine) ++
    (if diagram.edges.isEmpty then "" else "\n") ++
    String.join (diagram.edges.map Dot.edgeLine) ++ "\x7d\n"

end TableLineage
