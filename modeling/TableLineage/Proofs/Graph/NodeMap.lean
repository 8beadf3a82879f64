import Mathlib.Data.List.Nodup
import TableLineage.Graph.Basic

/-!
# A graph as a finite map and a finite set

The nodes of a lineage graph are a list without repeated ids, so `node?` is a finite map from ids to
nodes, and the dependencies are a finite set of pairs.  This file says what each operation does to
the map and to the set.  What is said elsewhere about the graph of a build follows from these
equations alone; the lists behind them are not opened again.

* `node?_addTable`: one entry changes, and only if it is new or becomes a model;
* `mem_dependencies_addDependency`: at most one pair is new;
* `promoteTargets_eq_self`: without a source that reads another table nothing is promoted.
-/

namespace TableLineage

theorem TableId.ext_value {a b : TableId} (h : a.value = b.value) : a = b := by
  cases a
  cases b
  simpa using h

theorem TableId.value_inj {a b : TableId} : a.value = b.value ↔ a = b :=
  ⟨TableId.ext_value, congrArg TableId.value⟩

/-- The node under an id after a table of the given kind was added there. -/
def TableNode.afterAdding (id : TableId) (name : String) (kind : NodeKind) :
    Option TableNode → TableNode
  | none => ⟨id, if name = "" then id.value else name, kind⟩
  | some node => if kind = .model then { node with kind } else node

namespace LineageGraph

variable {graph : LineageGraph}

/-! ## The map from ids to nodes -/

/-- Looking up the nodes of a list by id. -/
private theorem find?_withTable (id : TableId) (name : String) (kind : NodeKind) (key : String)
    (nodes : List TableNode) :
    (withTable id name kind nodes).find? (·.id.value == key) =
      if key = id.value then
        some (.afterAdding id name kind (nodes.find? (·.id.value == key)))
      else
        nodes.find? (·.id.value == key) := by
  induction nodes with
  | nil =>
      by_cases hkey : key = id.value
      · simp [withTable, TableNode.afterAdding, hkey]
      · simp [withTable, hkey, Ne.symm hkey]
  | cons node rest ih =>
      simp only [withTable]
      -- the table is added at this node, or somewhere after it
      by_cases hid : node.id = id
      · by_cases hkey : key = id.value
        · subst hkey
          have hfound : (node :: rest).find? (·.id.value == id.value) = some node := by simp [hid]
          rw [if_pos rfl, hfound]
          by_cases hmodel : kind = .model <;> simp [TableNode.afterAdding, hid, hmodel]
        · have hother : (id.value == key) = false := by simpa using Ne.symm hkey
          by_cases hmodel : kind = .model <;> simp [hid, hmodel, hkey, hother]
      · rw [if_neg hid]
        by_cases hnode : node.id.value = key
        · have hkey : key ≠ id.value := fun h => hid (TableId.ext_value (hnode.trans h))
          simp [hnode, hkey]
        · simp only [List.find?_cons, beq_eq_false_iff_ne.mpr hnode, ih]

theorem node?_addTable (id : TableId) (name : String) (kind : NodeKind) (key : String) :
    (graph.addTable id name kind).node? key =
      if key = id.value then some (.afterAdding id name kind (graph.node? key))
      else graph.node? key :=
  find?_withTable id name kind key graph.nodes

theorem id_value_of_node? {key : String} {node : TableNode} (h : graph.node? key = some node) :
    node.id.value = key := by
  simpa using List.find?_some h

theorem mem_nodes_of_node? {key : String} {node : TableNode} (h : graph.node? key = some node) :
    node ∈ graph.nodes :=
  List.mem_of_find?_eq_some h

/-- Two nodes with the same id are the same node. -/
theorem eq_of_mem_nodes {a b : TableNode} (ha : a ∈ graph.nodes) (hb : b ∈ graph.nodes)
    (hid : a.id = b.id) : a = b :=
  List.inj_on_of_nodup_map graph.nodup_ids ha hb hid

theorem mem_nodes_iff {node : TableNode} :
    node ∈ graph.nodes ↔ graph.node? node.id.value = some node := by
  refine ⟨?_, mem_nodes_of_node?⟩
  intro hmem
  cases hfound : graph.node? node.id.value with
  | none =>
      have habsent := List.find?_eq_none.mp hfound node hmem
      simp at habsent
  | some other =>
      have hid : other.id = node.id := TableId.ext_value (id_value_of_node? hfound)
      rw [eq_of_mem_nodes (mem_nodes_of_node? hfound) hmem hid]

theorem mem_ids_iff {id : TableId} : id ∈ graph.ids ↔ (graph.node? id.value).isSome := by
  constructor
  · intro hmem
    obtain ⟨node, hnode, rfl⟩ := List.mem_map.mp hmem
    rw [mem_nodes_iff.mp hnode]
    rfl
  · intro hsome
    -- the id of the node found is the one looked up
    obtain ⟨node, hnode⟩ := Option.isSome_iff_exists.mp hsome
    have hid : node.id = id := TableId.ext_value (id_value_of_node? hnode)
    exact hid ▸ List.mem_map_of_mem (mem_nodes_of_node? hnode)

/-! ## The set of dependencies -/

@[simp] theorem node?_addDependency (source target key : String) :
    (graph.addDependency source target).node? key = graph.node? key := by
  unfold addDependency
  split <;> rfl

/-- A dependency between two different tables of the graph is there once it has been added. -/
theorem mem_dependencies_addDependency {source target : TableId} (hne : source ≠ target)
    (hsource : source ∈ graph.ids) (htarget : target ∈ graph.ids) {d : Dependency} :
    d ∈ (graph.addDependency source.value target.value).dependencies ↔
      d ∈ graph.dependencies ∨ d = ⟨source, target⟩ := by
  obtain ⟨s, hs⟩ := Option.isSome_iff_exists.mp (mem_ids_iff.mp hsource)
  obtain ⟨t, ht⟩ := Option.isSome_iff_exists.mp (mem_ids_iff.mp htarget)
  have hsid : s.id = source := TableId.ext_value (id_value_of_node? hs)
  have htid : t.id = target := TableId.ext_value (id_value_of_node? ht)
  have hdiffer : source.value ≠ target.value := mt TableId.ext_value hne
  have hnew : graph.newDependency? source.value target.value =
      if (⟨source, target⟩ : Dependency) ∈ graph.dependencies then none
      else some ⟨source, target⟩ := by
    simp only [newDependency?, if_neg hdiffer, hs, ht, hsid, htid]
  -- nothing new is added just if the pair is there already
  unfold addDependency
  split
  case h_1 hnone =>
      rw [hnew] at hnone
      have hold : (⟨source, target⟩ : Dependency) ∈ graph.dependencies := by
        by_contra hold
        rw [if_neg hold] at hnone
        cases hnone
      exact ⟨.inl, fun h => h.elim id fun hd => hd ▸ hold⟩
  case h_2 added hadded =>
      rw [hnew] at hadded
      have hd : added = ⟨source, target⟩ := by
        split at hadded
        · cases hadded
        · exact (Option.some.inj hadded).symm
      simp [hd]

/-! ## Promotion -/

/-- A promotion changes nothing where no source reads another table. -/
theorem promoteTargets_eq_self (h : ∀ node ∈ graph.nodes, graph.isPromoted node = false) :
    graph.promoteTargets = graph := by
  have hnodes : graph.promoteTargets.nodes = graph.nodes := by
    calc graph.promoteTargets.nodes
        = graph.nodes.map id := by
          apply List.map_congr_left
          intro node hnode
          simp [h node hnode]
      _ = graph.nodes := List.map_id graph.nodes
  have hdependencies : graph.promoteTargets.dependencies = graph.dependencies := rfl
  cases hgraph : graph.promoteTargets
  cases graph
  simp_all

theorem promotedCount_eq_zero (h : ∀ node ∈ graph.nodes, graph.isPromoted node = false) :
    graph.promotedCount = 0 :=
  List.countP_eq_zero.mpr fun node hnode => by simp [h node hnode]

end LineageGraph

end TableLineage
