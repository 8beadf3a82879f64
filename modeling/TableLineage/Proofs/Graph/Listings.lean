import Mathlib.Algebra.BigOperators.Group.List.Basic
import Mathlib.Algebra.Ring.Nat
import TableLineage.Diagram.Payload
import TableLineage.Proofs.Graph.NodeMap

/-!
# Listings of a graph

A graph is listed in ascending order: its nodes, its dependencies, what a table reads and what reads
a table.  A listing has the elements of the map or the set that it lists, each once, so the lengths
of the lists of reads add up to the number of dependencies (`sum_directReads`), and so do those of
the readers (`sum_directReaders`).

The isolated nodes of a graph are those of its diagram (`map_id_isolated`).
-/

namespace TableLineage

namespace LineageGraph

variable {graph : LineageGraph}

/-! ## Nodes and dependencies -/

theorem perm_sortedNodes (graph : LineageGraph) : graph.sortedNodes.Perm graph.nodes :=
  List.mergeSort_perm _ _

theorem mem_sortedNodes {node : TableNode} :
    node ∈ graph.sortedNodes ↔ graph.node? node.id.value = some node := by
  rw [(perm_sortedNodes graph).mem_iff, mem_nodes_iff]

theorem nodup_ids_sortedNodes (graph : LineageGraph) :
    (graph.sortedNodes.map (·.id)).Nodup :=
  ((perm_sortedNodes graph).map (·.id)).nodup_iff.mpr graph.nodup_ids

/-- The nodes are listed by ascending id. -/
theorem pairwise_sortedNodes (graph : LineageGraph) :
    graph.sortedNodes.Pairwise fun a b => a.id < b.id := by
  have hle : graph.sortedNodes.Pairwise fun a b => decide (a.id.value ≤ b.id.value) = true := by
    apply List.pairwise_mergeSort
    · intro a b c hab hbc
      rw [decide_eq_true_eq] at hab hbc ⊢
      exact String.le_trans hab hbc
    · intro a b
      rw [Bool.or_eq_true, decide_eq_true_eq, decide_eq_true_eq]
      exact String.le_total _ _
  have hne : graph.sortedNodes.Pairwise fun a b => a.id ≠ b.id :=
    List.pairwise_map.mp (nodup_ids_sortedNodes graph)
  refine (hle.and hne).imp ?_
  intro a b h
  by_contra hlt
  exact h.2 (Std.Trichotomous.trichotomous a.id b.id hlt (of_decide_eq_true h.1))

theorem mem_sortedDependencies {d : Dependency} :
    d ∈ graph.sortedDependencies ↔ d ∈ graph.dependencies :=
  Order.mem_ascending

/-! ## Reads and readers -/

theorem sum_ite_eq_count (id : TableId) (ids : List TableId) :
    (ids.map fun other => if id == other then 1 else 0).sum = ids.count id := by
  induction ids with
  | nil => rfl
  | cons other ids ih =>
      rw [List.map_cons, List.sum_cons, ih, List.count_cons, Nat.add_comm]
      simp only [beq_iff_eq, eq_comm (a := id)]

/-- The sizes of the groups of a list by key add up to the length of the list. -/
theorem sum_countP_key {key : Dependency → TableId} {ids : List TableId} (hids : ids.Nodup)
    {dependencies : List Dependency} (hkey : ∀ d ∈ dependencies, key d ∈ ids) :
    (ids.map fun id => dependencies.countP (key · == id)).sum = dependencies.length := by
  induction dependencies with
  | nil => simp
  | cons d dependencies ih =>
      obtain ⟨hd, hkey⟩ := List.forall_mem_cons.mp hkey
      calc (ids.map fun id => (d :: dependencies).countP (key · == id)).sum
          = (ids.map fun id => dependencies.countP (key · == id) +
              if key d == id then 1 else 0).sum := by
            simp only [List.countP_cons]
        _ = dependencies.length + ids.count (key d) := by
            rw [List.sum_map_add, ih hkey, sum_ite_eq_count]
        _ = dependencies.length + 1 := by rw [hids.count, if_pos hd]

section Ends

variable {near far : Dependency → TableId}

/-- No table is listed twice among the far ends of the dependencies at one near end. -/
theorem length_ends (hends : ∀ a b, near a = near b → far a = far b → a = b) (id : TableId) :
    (Order.ascending
      ((graph.dependencies.filter fun d => (near d).value == id.value).map far)).length =
      graph.dependencies.countP (near · == id) := by
  have hnear : (fun d => (near d).value == id.value) = fun d => near d == id := by
    funext d
    rw [Bool.eq_iff_iff, beq_iff_eq, beq_iff_eq, TableId.value_inj]
  have hnodup : ((graph.dependencies.filter fun d => near d == id).map far).Nodup := by
    apply List.Nodup.map_on
    · intro a ha b hb hfar
      have hkeys : near a = id ∧ near b = id := by
        simp only [List.mem_filter, beq_iff_eq] at ha hb
        exact ⟨ha.2, hb.2⟩
      exact hends a b (hkeys.1.trans hkeys.2.symm) hfar
    · exact graph.nodup_dependencies.filter _
  rw [hnear, (Order.perm_ascending hnodup).length_eq, List.length_map,
    List.countP_eq_length_filter]

theorem sum_ends (near far : Dependency → TableId)
    (hends : ∀ a b, near a = near b → far a = far b → a = b)
    (hknown : ∀ d ∈ graph.dependencies, near d ∈ graph.ids) :
    (graph.sortedNodes.map fun node => (Order.ascending
      ((graph.dependencies.filter fun d => (near d).value == node.id.value).map far)).length).sum =
      graph.dependencyCount := by
  have hids : ∀ d ∈ graph.dependencies, near d ∈ graph.sortedNodes.map (·.id) := by
    intro d hd
    rw [((perm_sortedNodes graph).map (·.id)).mem_iff]
    exact hknown d hd
  calc (graph.sortedNodes.map fun node => (Order.ascending
        ((graph.dependencies.filter fun d => (near d).value == node.id.value).map far)).length).sum
      = ((graph.sortedNodes.map (·.id)).map fun id =>
          graph.dependencies.countP (near · == id)).sum := by
        simp only [length_ends hends, List.map_map, Function.comp_def]
    _ = graph.dependencyCount := sum_countP_key (nodup_ids_sortedNodes graph) hids

end Ends

theorem mem_directReads {key : String} {id : TableId} :
    id ∈ graph.directReads key ↔ ∃ d ∈ graph.dependencies, d.source = id ∧
      d.target.value = key := by
  simp only [directReads, Order.mem_ascending, List.mem_map, List.mem_filter, beq_iff_eq,
    and_assoc, and_comm (a := _ = key)]

theorem mem_directReaders {key : String} {id : TableId} :
    id ∈ graph.directReaders key ↔
      ∃ d ∈ graph.dependencies, d.target = id ∧ d.source.value = key := by
  simp only [directReaders, Order.mem_ascending, List.mem_map, List.mem_filter, beq_iff_eq,
    and_assoc, and_comm (a := _ = key)]

/-- Every dependency is a read of one table. -/
theorem sum_directReads (graph : LineageGraph) :
    (graph.sortedNodes.map fun node => (graph.directReads node.id.value).length).sum =
      graph.dependencyCount := by
  apply sum_ends Dependency.target Dependency.source
  · rintro ⟨s, t⟩ ⟨s', t'⟩ rfl rfl
    rfl
  · intro d hd
    exact (graph.known d hd).2.1

/-- Every dependency has one reader. -/
theorem sum_directReaders (graph : LineageGraph) :
    (graph.sortedNodes.map fun node => (graph.directReaders node.id.value).length).sum =
      graph.dependencyCount := by
  apply sum_ends Dependency.source Dependency.target
  · rintro ⟨s, t⟩ ⟨s', t'⟩ rfl rfl
    rfl
  · intro d hd
    exact (graph.known d hd).1

/-! ## Isolated nodes -/

/-- A graph and its diagram have the same isolated nodes in the same order. -/
theorem map_id_isolated (graph : LineageGraph) :
    graph.isolated.map (·.id.value) = (Diagram.ofGraph graph).isolated.map (·.id) := by
  have hconnected : ∀ node : TableNode, (Diagram.ofGraph graph).isConnected node.id.value =
      graph.dependencies.any fun d => d.source == node.id || d.target == node.id := by
    intro node
    rw [Bool.eq_iff_iff]
    simp only [Diagram.isConnected, Diagram.ofGraph, List.any_eq_true, List.mem_map,
      mem_sortedDependencies, Bool.or_eq_true, beq_iff_eq]
    constructor
    · rintro ⟨-, ⟨d, hd, rfl⟩, hends⟩
      exact ⟨d, hd, hends.imp TableId.ext_value TableId.ext_value⟩
    · rintro ⟨d, hd, hends⟩
      exact ⟨_, ⟨d, hd, rfl⟩, hends.imp (congrArg TableId.value) (congrArg TableId.value)⟩
  have hnodes : (Diagram.ofGraph graph).nodes =
      graph.sortedNodes.map fun node => ⟨node.id.value, node.displayName, node.kind⟩ := rfl
  rw [Diagram.isolated, hnodes, List.filter_map, List.map_map, isolated]
  simp only [Function.comp_def, hconnected]

end LineageGraph

end TableLineage
