import TableLineage.Diagram.Payload
import TableLineage.Text.Search

/-!
# Mermaid flowcharts

A flowchart has a line for every edge and one for every node without edges.  An id is written bare
if the flowchart grammar cannot misread it, and in double quotes otherwise.  Within quotes, a double
quote is written as `#quot;`.
-/

namespace TableLineage

namespace Mermaid

/-- The words that the flowchart grammar reserves, in lower case. -/
def reserved : List String :=
  ["end", "graph", "flowchart", "subgraph", "style", "classdef", "class", "click", "linkstyle",
    "direction", "default"]

/-- Whether a character may stand in a bare id. -/
def isBare (c : Char) : Bool :=
  c.isAlphanum || c == '_' || c == '.' || c == ':'

/-- Whether an id can be written bare.  Directly after an arrow, an `o` or `x` would be read as the
arrow's head. -/
def isSafe (id : String) : Bool :=
  !id.toList.isEmpty && id.toList.all isBare &&
    !(id.toList.head?.any fun c => c == 'o' || c == 'O' || c == 'x' || c == 'X') &&
    !reserved.any fun word => word.toList == id.toList.map Char.toLower

/-- The written form of an id. -/
def writtenId (id : String) : String :=
  if isSafe id then id else "\"" ++ Text.replaceAll "\"" "#quot;" id ++ "\""

/-- The line of an edge. -/
def edgeLine (edge : DiagramEdge) : String :=
  "    " ++ writtenId edge.source ++ "-->" ++ writtenId edge.target

/-- The line of a node without edges. -/
def nodeLine (node : DiagramNode) : String :=
  "    " ++ writtenId node.id

end Mermaid

/-- The lines of a diagram's flowchart. -/
def Diagram.mermaidLines (diagram : Diagram) : List String :=
  "flowchart TD" :: (diagram.edges.map Mermaid.edgeLine ++ diagram.isolated.map Mermaid.nodeLine)

/-- The flowchart of a diagram. -/
def Diagram.toMermaid (diagram : Diagram) : String :=
  "\n".intercalate diagram.mermaidLines

end TableLineage
