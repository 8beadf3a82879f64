import TableLineage.Graph.Reach
import TableLineage.Text.Json

/-!
# Diagrams

A diagram is what every drawing of a lineage graph is made from: a list of nodes and a list of
edges.  The diagram of a graph lists both in ascending order, so that all drawings of a graph show
the same in the same order.
-/

namespace TableLineage

/-- A node of a diagram. -/
structure DiagramNode where
  id : String
  name : String
  kind : NodeKind
  deriving DecidableEq, Repr

/-- An edge of a diagram. -/
structure DiagramEdge where
  source : String
  target : String
  deriving DecidableEq, Repr

namespace DiagramEdge

/-- Edges are ordered by source, then by target. -/
instance : LT DiagramEdge :=
  ⟨fun a b => a.source < b.source ∨ (a.source = b.source ∧ a.target < b.target)⟩

instance : DecidableLT DiagramEdge := fun a b =>
  inferInstanceAs (Decidable (a.source < b.source ∨ (a.source = b.source ∧ a.target < b.target)))

end DiagramEdge

/-- The nodes and edges of a drawing. -/
structure Diagram where
  nodes : List DiagramNode
  edges : List DiagramEdge
  deriving DecidableEq, Repr

namespace Diagram

/-- The diagram of a graph, nodes by ascending id and edges in ascending order. -/
def ofGraph (graph : LineageGraph) : Diagram where
  nodes := graph.sortedNodes.map fun node => ⟨node.id.value, node.displayName, node.kind⟩
  edges := graph.sortedDependencies.map fun d => ⟨d.source.value, d.target.value⟩

/-- Whether an id is an end of an edge. -/
def isConnected (diagram : Diagram) (id : String) : Bool :=
  diagram.edges.any fun edge => edge.source == id || edge.target == id

/-- The nodes that are in no edge. -/
def isolated (diagram : Diagram) : List DiagramNode :=
  diagram.nodes.filter fun node => !diagram.isConnected node.id

/-- The diagram as a JSON value. -/
def toJson (diagram : Diagram) : Json :=
  .object [
    ("nodes", .array (diagram.nodes.map fun node =>
      .object [("id", .string node.id), ("name", .string node.name),
        ("kind", .string node.kind.name)])),
    ("edges", .array (diagram.edges.map fun edge =>
      .object [("source", .string edge.source), ("target", .string edge.target)]))]

end Diagram

end TableLineage
