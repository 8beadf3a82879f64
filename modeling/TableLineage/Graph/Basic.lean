import TableLineage.Order.Ascending
import TableLineage.Table.Name

/-!
# Lineage graphs

The nodes of a lineage graph are tables, and a dependency `a → b` says that the file which produces
`b` reads `a`.  A table is a model if a file produces it and a source otherwise.  A node keeps the
name it was first given, and its kind only ever changes from source to model.

Nodes and dependencies are kept in the order in which they were added.  No id occurs twice, no
dependency occurs twice, and a dependency joins two different nodes of the graph.
-/

namespace TableLineage

/-- Whether a file produces a table. -/
inductive NodeKind where
  | source
  | model
  deriving DecidableEq, Repr

/-- The word for a kind. -/
def NodeKind.name : NodeKind → String
  | source => "source"
  | model => "model"

/-- A table of a lineage graph. -/
structure TableNode where
  id : TableId
  /-- The name under which the table was first met. -/
  displayName : String
  kind : NodeKind
  deriving DecidableEq, Repr

/-- The file that produces `target` reads `source`. -/
structure Dependency where
  source : TableId
  target : TableId
  deriving DecidableEq, Repr

namespace Dependency

/-- Dependencies are ordered by source, then by target. -/
instance : LT Dependency :=
  ⟨fun a b => a.source < b.source ∨ (a.source = b.source ∧ a.target < b.target)⟩

instance : DecidableLT Dependency := fun a b =>
  inferInstanceAs (Decidable (a.source < b.source ∨ (a.source = b.source ∧ a.target < b.target)))

instance : Trans (α := Dependency) (· < ·) (· < ·) (· < ·) where
  trans {a b c} hab hbc := by
    rcases hab with hab | ⟨hab, hab'⟩ <;> rcases hbc with hbc | ⟨hbc, hbc'⟩
    · exact .inl (Trans.trans hab hbc)
    · exact .inl (hbc ▸ hab)
    · exact .inl (hab ▸ hbc)
    · exact .inr ⟨hab.trans hbc, Trans.trans hab' hbc'⟩

instance : Std.Trichotomous (α := Dependency) (· < ·) where
  trichotomous
    | ⟨s, t⟩, ⟨s', t'⟩, hab, hba => by
      have hs : s = s' := Std.Trichotomous.trichotomous (r := (· < ·)) s s'
        (fun h => hab (.inl h)) (fun h => hba (.inl h))
      subst hs
      have ht : t = t' := Std.Trichotomous.trichotomous (r := (· < ·)) t t'
        (fun h => hab (.inr ⟨rfl, h⟩)) (fun h => hba (.inr ⟨rfl, h⟩))
      subst ht
      rfl

end Dependency

/-- A table that a graph does not hold. -/
structure TableNotFound where
  id : String
  deriving DecidableEq, Repr

/-- The text of the error. -/
def TableNotFound.message (error : TableNotFound) : String :=
  s!"[E004] Table not found in lineage graph: {error.id}"

/-- A table-level lineage graph. -/
structure LineageGraph where
  nodes : List TableNode
  dependencies : List Dependency
  nodup_ids : (nodes.map (·.id)).Nodup
  nodup_dependencies : dependencies.Nodup
  known : ∀ d ∈ dependencies,
    d.source ∈ nodes.map (·.id) ∧ d.target ∈ nodes.map (·.id) ∧ d.source ≠ d.target

namespace LineageGraph

/-- The graph without tables. -/
def empty : LineageGraph :=
  ⟨[], [], .nil, .nil, by simp⟩

/-! ## Looking up tables -/

/-- The ids of the nodes in the order in which they were added. -/
def ids (graph : LineageGraph) : List TableId :=
  graph.nodes.map (·.id)

/-- The node with an id. -/
def node? (graph : LineageGraph) (id : String) : Option TableNode :=
  graph.nodes.find? (·.id.value == id)

/-- Whether the graph holds a table. -/
def contains (graph : LineageGraph) (id : String) : Bool :=
  (graph.node? id).isSome

/-- The id of the node with the given text, or the error that there is none. -/
def find (graph : LineageGraph) (id : String) : Except TableNotFound TableId :=
  match graph.node? id with
  | some node => .ok node.id
  | none => .error ⟨id⟩

/-- The number of nodes that were added before the one with an id. -/
def position (graph : LineageGraph) (id : TableId) : Nat :=
  graph.ids.idxOf id

/-- The number of tables. -/
def nodeCount (graph : LineageGraph) : Nat :=
  graph.nodes.length

/-- The number of dependencies. -/
def dependencyCount (graph : LineageGraph) : Nat :=
  graph.dependencies.length

/-- Whether the graph holds no tables. -/
def isEmpty (graph : LineageGraph) : Bool :=
  graph.nodes.isEmpty

/-! ## Adding tables and dependencies -/

/-- The nodes with a table of the given kind.  A table that is there keeps its name, and becomes a
model if that is the kind.  A new table without a name is named by its id. -/
def withTable (id : TableId) (name : String) (kind : NodeKind) : List TableNode → List TableNode
  | [] => [⟨id, if name = "" then id.value else name, kind⟩]
  | node :: rest =>
    if node.id = id then
      (if kind = .model then { node with kind } else node) :: rest
    else
      node :: withTable id name kind rest

theorem map_id_withTable (id : TableId) (name : String) (kind : NodeKind) (nodes : List TableNode) :
    (withTable id name kind nodes).map (·.id) =
      if id ∈ nodes.map (·.id) then nodes.map (·.id) else nodes.map (·.id) ++ [id] := by
  induction nodes with
  | nil => simp [withTable]
  | cons node rest ih =>
    simp only [withTable]
    split
    case isTrue h =>
      split <;> simp [h]
    case isFalse h =>
      rw [List.map_cons, ih, List.map_cons]
      have hne : id ≠ node.id := fun e => h e.symm
      by_cases hmem : id ∈ rest.map (·.id)
      · rw [if_pos hmem, if_pos (List.mem_cons_of_mem _ hmem)]
      · rw [if_neg hmem, if_neg (by simp only [List.mem_cons, hne, false_or]; exact hmem)]
        simp

/-- The graph with a table of the given kind. -/
def addTable (graph : LineageGraph) (id : TableId) (name : String) (kind : NodeKind) :
    LineageGraph where
  nodes := withTable id name kind graph.nodes
  dependencies := graph.dependencies
  nodup_ids := by
    rw [map_id_withTable]
    split
    case isTrue => exact graph.nodup_ids
    case isFalse hnew =>
      refine List.nodup_append.2 ⟨graph.nodup_ids, by simp, ?_⟩
      rintro a ha b hb rfl
      obtain rfl := List.mem_singleton.1 hb
      exact hnew ha
  nodup_dependencies := graph.nodup_dependencies
  known d hd := by
    have h := graph.known d hd
    rw [map_id_withTable]
    split
    · exact h
    · exact ⟨List.mem_append_left _ h.1, List.mem_append_left _ h.2.1, h.2.2⟩

/-- The graph with a table that a file produces. -/
def addModel (graph : LineageGraph) (id : TableId) (name : String) : LineageGraph :=
  graph.addTable id name .model

/-- The graph with a table that is read; one that is there keeps its kind. -/
def addSource (graph : LineageGraph) (id : TableId) (name : String) : LineageGraph :=
  graph.addTable id name .source

/-- The dependency between two ids that can be added to the graph: they differ, the graph holds
both, and the dependency is not there yet. -/
def newDependency? (graph : LineageGraph) (source target : String) : Option Dependency :=
  if source = target then none
  else match graph.node? source, graph.node? target with
    | some s, some t =>
      if (⟨s.id, t.id⟩ : Dependency) ∈ graph.dependencies then none else some ⟨s.id, t.id⟩
    | _, _ => none

theorem newDependency?_eq_some {graph : LineageGraph} {source target : String} {d : Dependency}
    (h : graph.newDependency? source target = some d) :
    d.source ∈ graph.ids ∧ d.target ∈ graph.ids ∧ d.source ≠ d.target ∧
      d ∉ graph.dependencies := by
  unfold newDependency? at h
  split at h
  · simp at h
  case isFalse hne =>
    split at h
    case h_1 s t hs ht =>
      split at h
      · simp at h
      case isFalse hnew =>
        obtain rfl := Option.some.inj h
        have hs' := List.find?_some hs
        have ht' := List.find?_some ht
        simp only [beq_iff_eq] at hs' ht'
        refine ⟨List.mem_map_of_mem (List.mem_of_find?_eq_some hs),
          List.mem_map_of_mem (List.mem_of_find?_eq_some ht), fun heq => hne ?_, hnew⟩
        rw [← hs', ← ht']
        exact congrArg TableId.value heq
    case h_2 => simp at h

/-- The graph in which the file that produces `target` reads `source`; the graph itself if that
dependency cannot be added. -/
def addDependency (graph : LineageGraph) (source target : String) : LineageGraph :=
  match h : graph.newDependency? source target with
  | none => graph
  | some d =>
    { graph with
      dependencies := graph.dependencies ++ [d]
      nodup_dependencies := by
        refine List.nodup_append.2 ⟨graph.nodup_dependencies, by simp, ?_⟩
        rintro a ha b hb rfl
        obtain rfl := List.mem_singleton.1 hb
        exact (newDependency?_eq_some h).2.2.2 ha
      known := fun e he => by
        rcases List.mem_append.1 he with he | he
        · exact graph.known e he
        · obtain rfl := List.mem_singleton.1 he
          have := newDependency?_eq_some h
          exact ⟨this.1, this.2.1, this.2.2.1⟩ }

/-- Whether a node is a source that a file produces all the same, since it reads another table. -/
def isPromoted (graph : LineageGraph) (node : TableNode) : Bool :=
  node.kind == .source && graph.dependencies.any (·.target == node.id)

/-- The number of sources that read another table. -/
def promotedCount (graph : LineageGraph) : Nat :=
  graph.nodes.countP graph.isPromoted

/-- The graph in which every source that reads another table is a model. -/
def promoteTargets (graph : LineageGraph) : LineageGraph :=
  let promote (node : TableNode) : TableNode :=
    if graph.isPromoted node then { node with kind := .model } else node
  have same_ids : (graph.nodes.map promote).map (·.id) = graph.nodes.map (·.id) := by
    rw [List.map_map]
    refine List.map_congr_left fun node _ => ?_
    simp only [Function.comp, promote]
    split <;> rfl
  { graph with
    nodes := graph.nodes.map promote
    nodup_ids := same_ids ▸ graph.nodup_ids
    known := fun d hd => same_ids ▸ graph.known d hd }

/-- The graph of some of its tables and of the dependencies between those. -/
def restrict (graph : LineageGraph) (keep : TableId → Bool) : LineageGraph where
  nodes := graph.nodes.filter fun node => keep node.id
  dependencies := graph.dependencies.filter fun d => keep d.source && keep d.target
  nodup_ids := graph.nodup_ids.sublist (List.filter_sublist.map _)
  nodup_dependencies := graph.nodup_dependencies.sublist List.filter_sublist
  known d hd := by
    obtain ⟨hd, hkeep⟩ := List.mem_filter.1 hd
    rw [Bool.and_eq_true] at hkeep
    obtain ⟨hs, ht, hne⟩ := graph.known d hd
    refine ⟨?_, ?_, hne⟩
    · obtain ⟨node, hn, he⟩ := List.mem_map.1 hs
      exact List.mem_map.2 ⟨node, List.mem_filter.2 ⟨hn, by rw [he]; exact hkeep.1⟩, he⟩
    · obtain ⟨node, hn, he⟩ := List.mem_map.1 ht
      exact List.mem_map.2 ⟨node, List.mem_filter.2 ⟨hn, by rw [he]; exact hkeep.2⟩, he⟩

/-! ## Listings in order -/

/-- The nodes by ascending id. -/
def sortedNodes (graph : LineageGraph) : List TableNode :=
  graph.nodes.mergeSort fun a b => decide (a.id.value ≤ b.id.value)

/-- The dependencies in ascending order. -/
def sortedDependencies (graph : LineageGraph) : List Dependency :=
  Order.ascending graph.dependencies

/-- The nodes without dependencies, by ascending id. -/
def isolated (graph : LineageGraph) : List TableNode :=
  graph.sortedNodes.filter fun node =>
    !graph.dependencies.any fun d => d.source == node.id || d.target == node.id

/-- The tables that a table reads itself, in ascending order. -/
def directReads (graph : LineageGraph) (id : String) : List TableId :=
  Order.ascending ((graph.dependencies.filter (·.target.value == id)).map (·.source))

/-- The tables that read a table themselves, in ascending order. -/
def directReaders (graph : LineageGraph) (id : String) : List TableId :=
  Order.ascending ((graph.dependencies.filter (·.source.value == id)).map (·.target))

end LineageGraph

end TableLineage
