import TableLineage.Proofs.Graph.History

/-!
# A graph from its own tables and dependencies

A graph without empty names is the graph after its tables and then its dependencies have been added
to the empty graph (`run_rebuildingCalls`), in the order in which it holds them.  Every call on the
way adds something new, so nothing is merged and nothing is refused.  Only the empty name would be
lost: a table that is added without a name is named by its id.  No graph after calls has one
(`displayName_ne_empty_of_mem_run`).
-/

namespace TableLineage

/-- The call that adds a table. -/
def TableNode.addingCall (node : TableNode) : GraphCall :=
  match node.kind with
  | .model => .addModel node.id node.displayName
  | .source => .addSource node.id node.displayName

/-- The call that adds a dependency. -/
def Dependency.addingCall (d : Dependency) : GraphCall :=
  .addDependency d.source.value d.target.value

namespace LineageGraph

/-- The calls that add the tables of a graph and then its dependencies. -/
def rebuildingCalls (graph : LineageGraph) : List GraphCall :=
  graph.nodes.map TableNode.addingCall ++ graph.dependencies.map Dependency.addingCall

variable {graph other : LineageGraph}

theorem eq_of_lists (hnodes : graph.nodes = other.nodes)
    (hdependencies : graph.dependencies = other.dependencies) : graph = other := by
  cases graph
  cases other
  simp_all

/-! ## Names -/

theorem ne_empty_of_name? {key name : String} {next : GraphCall} (h : next.name? key = some name) :
    name ≠ "" := by
  cases next with
  | addModel id first | addSource id first =>
      rw [GraphCall.name?] at h
      split_ifs at h with hkey hempty
      · exact Option.some.inj h ▸ id.nonempty
      · exact Option.some.inj h ▸ hempty
  | addDependency source target => cases h
  | promoteTargets => cases h

/-- The name of a table is the first that some call gave it, and no call gives the empty one. -/
theorem displayName_ne_empty_of_mem_run {calls : List GraphCall} {node : TableNode}
    (h : node ∈ (run calls).1.nodes) : node.displayName ≠ "" := by
  have hname := LineageSpec.map_name_run calls node.id.value
  rw [spec_run, entry_spec, mem_nodes_iff.mp h, Option.map_some, Option.map_some] at hname
  obtain ⟨next, -, hnext⟩ := List.exists_of_findSome?_eq_some hname.symm
  exact ne_empty_of_name? hnext

/-! ## Adding the tables -/

theorem withTable_of_notMem {id : TableId} {name : String} {kind : NodeKind}
    {nodes : List TableNode} (h : id ∉ nodes.map (·.id)) :
    withTable id name kind nodes = nodes ++ [⟨id, if name = "" then id.value else name, kind⟩] := by
  induction nodes with
  | nil => rfl
  | cons node nodes ih =>
      rw [List.map_cons, List.mem_cons, not_or] at h
      rw [withTable, if_neg (Ne.symm h.1), ih h.2, List.cons_append]

theorem call_addingCall (graph : LineageGraph) (node : TableNode) :
    (graph.call node.addingCall).1 = graph.addTable node.id node.displayName node.kind := by
  rw [TableNode.addingCall]
  split
  case h_1 hkind => rw [hkind]; rfl
  case h_2 hkind => rw [hkind]; rfl

/-- Tables with different ids and with names are added one after the other. -/
theorem run_addingCalls {nodes : List TableNode} (hids : (nodes.map (·.id)).Nodup)
    (hnames : ∀ node ∈ nodes, node.displayName ≠ "") :
    (run (nodes.map TableNode.addingCall)).1.nodes = nodes ∧
      (run (nodes.map TableNode.addingCall)).1.dependencies = [] := by
  induction nodes using List.reverseRecOn with
  | nil => exact ⟨rfl, rfl⟩
  | append_singleton nodes node ih =>
      rw [List.map_append, List.nodup_append] at hids
      -- the last node is new to the graph of the others
      have hnew : node.id ∉ nodes.map (·.id) := fun hmem =>
        hids.2.2 node.id hmem node.id List.mem_cons_self rfl
      obtain ⟨hnodes, hdependencies⟩ := ih hids.1 fun other hother =>
        hnames other (List.mem_append_left _ hother)
      have hname : node.displayName ≠ "" := hnames node (by simp)
      rw [List.map_append, List.map_singleton, run, runCalls_append, runCalls_singleton,
        call_addingCall]
      refine ⟨?_, hdependencies⟩
      calc withTable node.id node.displayName node.kind
            (run (nodes.map TableNode.addingCall)).1.nodes
          = nodes ++ [⟨node.id, node.displayName, node.kind⟩] := by
            rw [hnodes, withTable_of_notMem hnew, if_neg hname]
        _ = nodes ++ [node] := rfl

/-! ## Adding the dependencies -/

theorem isNew_of_notMem {d : Dependency} (hsource : d.source ∈ graph.ids)
    (htarget : d.target ∈ graph.ids) (hne : d.source ≠ d.target) (hnew : d ∉ graph.dependencies) :
    graph.spec.IsNew d.source.value d.target.value :=
  ⟨mt TableId.ext_value hne, isSome_entry_spec.mpr (mem_ids_iff.mp hsource),
    isSome_entry_spec.mpr (mem_ids_iff.mp htarget), mt mem_pairs_spec.mp hnew⟩

theorem nodes_addDependency (source target : String) :
    (graph.addDependency source target).nodes = graph.nodes := by
  unfold addDependency
  split <;> rfl

/-- A dependency between two tables of the graph that is not there yet is added at the end. -/
theorem dependencies_addDependency {d : Dependency} (hsource : d.source ∈ graph.ids)
    (htarget : d.target ∈ graph.ids) (hne : d.source ≠ d.target) (hnew : d ∉ graph.dependencies) :
    (graph.addDependency d.source.value d.target.value).dependencies =
      graph.dependencies ++ [d] := by
  obtain ⟨added, hadded, hs, ht⟩ :=
    exists_newDependency? (isNew_of_notMem hsource htarget hne hnew)
  have hd : added = d := congrArg₂ Dependency.mk (TableId.ext_value hs) (TableId.ext_value ht)
  rw [addDependency_of_some hadded, hd]

/-- Different dependencies between tables of the graph are added one after the other. -/
theorem runCalls_addingCalls {dependencies : List Dependency} (hnone : graph.dependencies = [])
    (hnodup : dependencies.Nodup)
    (hknown : ∀ d ∈ dependencies, d.source ∈ graph.ids ∧ d.target ∈ graph.ids ∧
      d.source ≠ d.target) :
    (runCalls call graph (dependencies.map Dependency.addingCall)).1.nodes = graph.nodes ∧
      (runCalls call graph (dependencies.map Dependency.addingCall)).1.dependencies =
        dependencies := by
  induction dependencies using List.reverseRecOn with
  | nil => exact ⟨rfl, hnone⟩
  | append_singleton dependencies d ih =>
      rw [List.nodup_append] at hnodup
      -- the last dependency is new, and its ends are known
      have hnew : d ∉ dependencies := fun hmem => hnodup.2.2 d hmem d List.mem_cons_self rfl
      obtain ⟨hnodes, hadded⟩ := ih hnodup.1 fun other hother =>
        hknown other (List.mem_append_left _ hother)
      obtain ⟨hsource, htarget, hne⟩ := hknown d (by simp)
      rw [List.map_append, List.map_singleton, runCalls_append, runCalls_singleton]
      refine ⟨?_, ?_⟩
      · exact (nodes_addDependency _ _).trans hnodes
      · rw [ids, ← hnodes] at hsource htarget
        rw [← hadded] at hnew
        calc (addDependency _ d.source.value d.target.value).dependencies
            = _ ++ [d] := dependencies_addDependency hsource htarget hne hnew
          _ = dependencies ++ [d] := by rw [hadded]

/-- A graph without empty names is what its own calls build. -/
theorem run_rebuildingCalls (hnames : ∀ node ∈ graph.nodes, node.displayName ≠ "") :
    (run graph.rebuildingCalls).1 = graph := by
  obtain ⟨hnodes, hnone⟩ := run_addingCalls graph.nodup_ids hnames
  have hids : (run (graph.nodes.map TableNode.addingCall)).1.ids = graph.ids := by
    rw [ids, hnodes, ids]
  obtain ⟨hsame, hdependencies⟩ :=
    runCalls_addingCalls hnone graph.nodup_dependencies fun d hd => by
    rw [hids]
    exact graph.known d hd
  rw [run, rebuildingCalls, runCalls_append]
  exact eq_of_lists (hsame.trans hnodes) hdependencies

end LineageGraph

end TableLineage
