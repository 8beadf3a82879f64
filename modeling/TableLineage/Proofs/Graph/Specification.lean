import Mathlib.Data.Finset.Card
import Mathlib.Data.Finset.Image
import TableLineage.Proofs.Graph.Listings

/-!
# Calls on a graph

A lineage graph stands for a map from ids to names and kinds and a set of pairs of ids, its
`LineageSpec`.  What a call does to the graph is said on the map and the set alone, by
`LineageSpec.call`, and the graph does just that and gives the same answer (`spec_call`).  So the
graph after any calls stands for the map and the set after these calls (`spec_run`).

The map can also be told from the calls: the name of a table is the first one that it was given, and
a table is a model if some call made it one (`MadeModel`).
-/

namespace TableLineage

/-! ## Calls -/

/-- A call that changes a graph. -/
inductive GraphCall where
  | addModel (id : TableId) (name : String)
  | addSource (id : TableId) (name : String)
  | addDependency (source target : String)
  | promoteTargets
  deriving DecidableEq, Repr

/-- What a call answers. -/
inductive GraphAnswer where
  | done
  | added (isNew : Bool)
  | promoted (count : Nat)
  deriving DecidableEq, Repr

/-- The state after calls, and their answers in order. -/
def runCalls {State : Type} (call : State → GraphCall → State × GraphAnswer) (state : State) :
    List GraphCall → State × List GraphAnswer
  | [] => (state, [])
  | next :: calls =>
    let (after, answer) := call state next
    let (last, answers) := runCalls call after calls
    (last, answer :: answers)

namespace LineageGraph

/-- The graph after a call, and the answer. -/
def call (graph : LineageGraph) : GraphCall → LineageGraph × GraphAnswer
  | .addModel id name => (graph.addModel id name, .done)
  | .addSource id name => (graph.addSource id name, .done)
  | .addDependency source target =>
    (graph.addDependency source target, .added (graph.newDependency? source target).isSome)
  | .promoteTargets => (graph.promoteTargets, .promoted graph.promotedCount)

/-- The graph after calls on the empty graph, and the answers. -/
def run (calls : List GraphCall) : LineageGraph × List GraphAnswer :=
  runCalls call empty calls

end LineageGraph

/-! ## The map and the set -/

/-- A map from ids to names and kinds, and a set of pairs of ids. -/
@[ext]
structure LineageSpec where
  entry : String → Option (String × NodeKind)
  pairs : Finset (String × String)

namespace LineageSpec

/-- The empty map and the empty set. -/
def empty : LineageSpec :=
  ⟨fun _ => none, ∅⟩

/-- The entry of a table that is added: the first name stays, and a model stays a model. -/
def addedEntry (id name : String) (kind : NodeKind) :
    Option (String × NodeKind) → String × NodeKind
  | none => (if name = "" then id else name, kind)
  | some (first, old) => (first, if kind = .model then .model else old)

/-- The map with a table. -/
def addTable (spec : LineageSpec) (id name : String) (kind : NodeKind) : LineageSpec :=
  { spec with entry :=
    Function.update spec.entry id (some (addedEntry id name kind (spec.entry id))) }

/-- A pair is new if it joins two different tables of the map and is not in the set. -/
def IsNew (spec : LineageSpec) (source target : String) : Prop :=
  source ≠ target ∧ (spec.entry source).isSome ∧ (spec.entry target).isSome ∧
    (source, target) ∉ spec.pairs

instance (spec : LineageSpec) (source target : String) : Decidable (spec.IsNew source target) :=
  inferInstanceAs (Decidable (_ ∧ _))

/-- The set with one more pair. -/
def addPair (spec : LineageSpec) (source target : String) : LineageSpec :=
  { spec with pairs := insert (source, target) spec.pairs }

/-- The ids with a pair that leads to them. -/
def targets (spec : LineageSpec) : Finset String :=
  spec.pairs.image Prod.snd

/-- The sources with a pair that leads to them. -/
def promoted (spec : LineageSpec) : Finset String :=
  spec.targets.filter fun id => (spec.entry id).any (·.2 == .source)

/-- The map in which every table with a pair that leads to it is a model. -/
def promote (spec : LineageSpec) : LineageSpec :=
  { spec with
    entry := fun id => (spec.entry id).map fun (name, kind) =>
      (name, if id ∈ spec.targets then .model else kind) }

/-- The map and the set after a call, and the answer. -/
def call (spec : LineageSpec) : GraphCall → LineageSpec × GraphAnswer
  | .addModel id name => (spec.addTable id.value name .model, .done)
  | .addSource id name => (spec.addTable id.value name .source, .done)
  | .addDependency source target =>
    if spec.IsNew source target then (spec.addPair source target, .added true)
    else (spec, .added false)
  | .promoteTargets => (spec.promote, .promoted spec.promoted.card)

/-- The map and the set after calls, and the answers. -/
def run (calls : List GraphCall) : LineageSpec × List GraphAnswer :=
  runCalls call empty calls

theorem entry_addTable (spec : LineageSpec) (id name : String) (kind : NodeKind) (key : String) :
    (spec.addTable id name kind).entry key =
      if key = id then some (addedEntry id name kind (spec.entry id)) else spec.entry key :=
  Function.update_apply _ _ _ _

end LineageSpec

namespace LineageGraph

variable {graph : LineageGraph}

/-- The map and the set that a graph stands for. -/
def spec (graph : LineageGraph) : LineageSpec where
  entry key := (graph.node? key).map fun node => (node.displayName, node.kind)
  pairs := (graph.dependencies.map fun d => (d.source.value, d.target.value)).toFinset

theorem entry_spec (graph : LineageGraph) (key : String) :
    graph.spec.entry key = (graph.node? key).map fun node => (node.displayName, node.kind) := rfl

theorem isSome_entry_spec {key : String} :
    (graph.spec.entry key).isSome ↔ (graph.node? key).isSome := by
  rw [entry_spec, Option.isSome_map]

theorem mem_pairs_spec {source target : TableId} :
    (source.value, target.value) ∈ graph.spec.pairs ↔ ⟨source, target⟩ ∈ graph.dependencies := by
  simp only [spec, List.mem_toFinset, List.mem_map, Prod.mk.injEq, TableId.value_inj]
  constructor
  · rintro ⟨d, hd, rfl, rfl⟩
    exact hd
  · intro hd
    exact ⟨_, hd, rfl, rfl⟩

theorem exists_of_mem_pairs {source target : String} (h : (source, target) ∈ graph.spec.pairs) :
    ∃ d ∈ graph.dependencies, d.source.value = source ∧ d.target.value = target := by
  simpa [spec] using h

/-- A pair joins two different tables of the map. -/
theorem known_of_mem_pairs {source target : String} (h : (source, target) ∈ graph.spec.pairs) :
    source ≠ target ∧ (graph.spec.entry source).isSome ∧ (graph.spec.entry target).isSome := by
  obtain ⟨d, hd, rfl, rfl⟩ := exists_of_mem_pairs h
  obtain ⟨hsource, htarget, hne⟩ := graph.known d hd
  refine ⟨mt TableId.ext_value hne, ?_, ?_⟩
  · exact isSome_entry_spec.mpr (mem_ids_iff.mp hsource)
  · exact isSome_entry_spec.mpr (mem_ids_iff.mp htarget)

theorem mem_targets_spec {key : String} :
    key ∈ graph.spec.targets ↔ ∃ d ∈ graph.dependencies, d.target.value = key := by
  simp [LineageSpec.targets, spec]

theorem isSome_of_mem_targets {key : String} (h : key ∈ graph.spec.targets) :
    (graph.spec.entry key).isSome := by
  obtain ⟨⟨source, target⟩, hpair, rfl⟩ := Finset.mem_image.mp h
  exact (known_of_mem_pairs hpair).2.2

/-! ## Each call -/

theorem spec_addTable (id : TableId) (name : String) (kind : NodeKind) :
    (graph.addTable id name kind).spec = graph.spec.addTable id.value name kind := by
  have hentry : ∀ key, (graph.addTable id name kind).spec.entry key =
      (graph.spec.addTable id.value name kind).entry key := by
    intro key
    rw [entry_spec, node?_addTable, LineageSpec.entry_addTable, entry_spec, entry_spec]
    split_ifs with hkey
    · subst hkey
      cases graph.node? id.value with
      | none => rfl
      | some node => cases kind <;> rfl
    · rfl
  exact LineageSpec.ext (funext hentry) rfl

section AddDependency

variable {source target : String}

/-- A new pair is added as the dependency between the nodes with these ids. -/
theorem exists_newDependency? (h : graph.spec.IsNew source target) :
    ∃ d, graph.newDependency? source target = some d ∧ d.source.value = source ∧
      d.target.value = target := by
  obtain ⟨hne, hsource, htarget, hnew⟩ := h
  obtain ⟨s, hs⟩ := Option.isSome_iff_exists.mp (isSome_entry_spec.mp hsource)
  obtain ⟨t, ht⟩ := Option.isSome_iff_exists.mp (isSome_entry_spec.mp htarget)
  obtain rfl := id_value_of_node? hs
  obtain rfl := id_value_of_node? ht
  rw [mem_pairs_spec] at hnew
  refine ⟨⟨s.id, t.id⟩, ?_, rfl, rfl⟩
  simp only [newDependency?, if_neg hne, hs, ht, if_neg hnew]

theorem newDependency?_eq_none (h : ¬ graph.spec.IsNew source target) :
    graph.newDependency? source target = none := by
  rw [Option.eq_none_iff_forall_ne_some]
  intro d hd
  unfold newDependency? at hd
  split_ifs at hd with hne
  split at hd
  case h_1 s t hs ht =>
      split_ifs at hd with hnew
      apply h
      obtain rfl := id_value_of_node? hs
      obtain rfl := id_value_of_node? ht
      refine ⟨hne, ?_, ?_, mt mem_pairs_spec.mp hnew⟩
      · rw [isSome_entry_spec, hs]
        rfl
      · rw [isSome_entry_spec, ht]
        rfl
  case h_2 => cases hd

theorem addDependency_of_some {d : Dependency}
    (h : graph.newDependency? source target = some d) :
    (graph.addDependency source target).dependencies = graph.dependencies ++ [d] := by
  unfold addDependency
  split
  case h_1 hnone => rw [h] at hnone; cases hnone
  case h_2 other hother =>
      rw [h] at hother
      rw [Option.some.inj hother]

theorem addDependency_of_none (h : graph.newDependency? source target = none) :
    graph.addDependency source target = graph := by
  unfold addDependency
  split
  case h_1 => rfl
  case h_2 other hother => rw [h] at hother; cases hother

theorem spec_addDependency (h : graph.spec.IsNew source target) :
    (graph.addDependency source target).spec = graph.spec.addPair source target := by
  obtain ⟨d, hd, rfl, rfl⟩ := exists_newDependency? h
  apply LineageSpec.ext
  · funext key
    rw [entry_spec, node?_addDependency]
    rfl
  · show ((graph.addDependency d.source.value d.target.value).dependencies.map _).toFinset = _
    rw [addDependency_of_some hd, List.map_append, List.toFinset_append, Finset.union_comm]
    rfl

end AddDependency

section Promote

theorem node?_promoteTargets (key : String) :
    graph.promoteTargets.node? key = (graph.node? key).map fun node =>
      if graph.isPromoted node then { node with kind := .model } else node := by
  unfold node? promoteTargets
  rw [List.find?_map]
  congr 2
  funext node
  simp only [Function.comp_apply]
  split <;> rfl

theorem isPromoted_iff {node : TableNode} :
    graph.isPromoted node = true ↔ node.kind = .source ∧ node.id.value ∈ graph.spec.targets := by
  rw [isPromoted, Bool.and_eq_true, beq_iff_eq, List.any_eq_true, mem_targets_spec]
  simp only [beq_iff_eq, TableId.value_inj]

theorem spec_promoteTargets (graph : LineageGraph) :
    graph.promoteTargets.spec = graph.spec.promote := by
  apply LineageSpec.ext
  · funext key
    show (graph.promoteTargets.node? key).map _ = ((graph.node? key).map _).map _
    rw [node?_promoteTargets, Option.map_map, Option.map_map]
    apply Option.map_congr
    intro node hnode
    obtain rfl := id_value_of_node? hnode
    simp only [Function.comp_apply, isPromoted_iff]
    by_cases htarget : node.id.value ∈ graph.spec.targets
    · cases hkind : node.kind <;> simp [htarget, hkind]
    · simp [htarget]
  · rfl

theorem mem_promoted_spec {key : String} :
    key ∈ graph.spec.promoted ↔ ∃ node ∈ graph.nodes, graph.isPromoted node ∧
      node.id.value = key := by
  rw [LineageSpec.promoted, Finset.mem_filter, entry_spec]
  constructor
  · rintro ⟨htarget, hsource⟩
    rw [Option.any_map, Option.any_eq_true] at hsource
    obtain ⟨node, hnode, hkind⟩ := hsource
    obtain rfl := id_value_of_node? hnode
    exact ⟨node, mem_nodes_of_node? hnode, isPromoted_iff.mpr ⟨eq_of_beq hkind, htarget⟩, rfl⟩
  · rintro ⟨node, hnode, hpromoted, rfl⟩
    obtain ⟨hkind, htarget⟩ := isPromoted_iff.mp hpromoted
    refine ⟨htarget, ?_⟩
    rw [mem_nodes_iff.mp hnode, Option.map_some, Option.any_some, hkind]
    rfl

/-- The nodes that are promoted are as many as their ids. -/
theorem promotedCount_eq_card (graph : LineageGraph) :
    graph.promotedCount = graph.spec.promoted.card := by
  have hset : graph.spec.promoted =
      ((graph.nodes.filter graph.isPromoted).map (·.id.value)).toFinset := by
    ext key
    simp only [mem_promoted_spec, List.mem_toFinset, List.mem_map, List.mem_filter, and_assoc]
  have hnodup : ((graph.nodes.filter graph.isPromoted).map (·.id.value)).Nodup := by
    have hids : ((graph.nodes.filter graph.isPromoted).map (·.id)).Nodup :=
      graph.nodup_ids.sublist (List.filter_sublist.map _)
    have hvalues := hids.map (f := TableId.value) fun a b => TableId.ext_value
    rwa [List.map_map] at hvalues
  rw [hset, List.toFinset_card_of_nodup hnodup, List.length_map, promotedCount,
    List.countP_eq_length_filter]

end Promote

/-- A graph does what its map and set do. -/
theorem spec_call (graph : LineageGraph) (next : GraphCall) :
    graph.spec.call next = ((graph.call next).1.spec, (graph.call next).2) := by
  cases next with
  | addModel id name => rw [LineageSpec.call, call, addModel, spec_addTable]
  | addSource id name => rw [LineageSpec.call, call, addSource, spec_addTable]
  | addDependency source target =>
      rw [LineageSpec.call, call]
      split_ifs with hnew
      · obtain ⟨d, hd, -, -⟩ := exists_newDependency? hnew
        rw [spec_addDependency hnew, hd]
        rfl
      · rw [newDependency?_eq_none hnew, addDependency_of_none (newDependency?_eq_none hnew)]
        rfl
  | promoteTargets =>
      rw [LineageSpec.call, call, spec_promoteTargets, promotedCount_eq_card]

end LineageGraph

end TableLineage
