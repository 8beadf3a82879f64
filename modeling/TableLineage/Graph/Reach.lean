import TableLineage.Graph.Basic

/-!
# Ancestors and descendants

The ancestors of a table are the tables that it reads, directly or through other tables.  A table is
never listed among its own ancestors, even when it reads itself through others.  Descendants are the
same in the other direction.

`explore` walks a graph of successors.  It takes each element out of the unseen ones when it reaches
it, so that the walk ends.
-/

namespace TableLineage

/-- The elements of `unseen` that the walk from `todo` reaches without leaving `unseen`. -/
def explore {α : Type} [DecidableEq α] (next : α → List α) (unseen todo : List α) : List α :=
  match todo with
  | [] => []
  | a :: rest =>
    if _h : a ∈ unseen then a :: explore next (unseen.erase a) (next a ++ rest)
    else explore next unseen rest
termination_by (unseen.length, todo.length)
decreasing_by
  · refine Prod.Lex.left _ _ ?_
    rw [List.length_erase_of_mem _h]
    have := List.length_pos_of_mem _h
    omega
  · exact Prod.Lex.right _ (by simp)

/-- The side of a table to follow. -/
inductive Direction where
  /-- Towards the tables that it reads. -/
  | reads
  /-- Towards the tables that read it. -/
  | readers
  | both
  deriving DecidableEq, Repr

namespace LineageGraph

/-- The tables that a table reads directly. -/
def predecessors (graph : LineageGraph) (id : TableId) : List TableId :=
  (graph.dependencies.filter (·.target == id)).map (·.source)

/-- The tables that read a table directly. -/
def successors (graph : LineageGraph) (id : TableId) : List TableId :=
  (graph.dependencies.filter (·.source == id)).map (·.target)

/-- The tables that a table of the graph reads, directly or through others. -/
def ancestors (graph : LineageGraph) (id : TableId) : List TableId :=
  explore graph.predecessors (graph.ids.erase id) (graph.predecessors id)

/-- The tables that read a table of the graph, directly or through others. -/
def descendants (graph : LineageGraph) (id : TableId) : List TableId :=
  explore graph.successors (graph.ids.erase id) (graph.successors id)

/-- The tables that a table reads, directly or through others, in ascending order. -/
def reads (graph : LineageGraph) (id : String) : Except TableNotFound (List TableId) :=
  (graph.find id).map fun start => Order.ascending (graph.ancestors start)

/-- The tables that read a table, directly or through others, in ascending order. -/
def readers (graph : LineageGraph) (id : String) : Except TableNotFound (List TableId) :=
  (graph.find id).map fun start => Order.ascending (graph.descendants start)

/-- A table and the tables on one or both sides of it. -/
def around (graph : LineageGraph) (start : TableId) : Direction → List TableId
  | .reads => start :: graph.ancestors start
  | .readers => start :: graph.descendants start
  | .both => start :: (graph.ancestors start ++ graph.descendants start)

/-- The graph of a table and the tables on one or both sides of it. -/
def neighbourhood (graph : LineageGraph) (id : String) (direction : Direction) :
    Except TableNotFound LineageGraph :=
  (graph.find id).map fun start =>
    let kept := graph.around start direction
    graph.restrict fun id => kept.contains id

/-! ## Cycles -/

/-- A table and the tables that it depends on and that depend on it, in ascending order. -/
def loopOf (graph : LineageGraph) (id : TableId) : List TableId :=
  let below := graph.descendants id
  Order.ascending (id :: (graph.ancestors id).filter fun other => below.contains other)

/-- The groups of two or more tables that depend on each other, each in ascending order, by
ascending first table. -/
def cycles (graph : LineageGraph) : List (List TableId) :=
  (Order.ascending graph.ids).filterMap fun id =>
    let group := graph.loopOf id
    if 1 < group.length ∧ group.head? = some id then some group else none

end LineageGraph

end TableLineage
