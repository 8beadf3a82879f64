import TableLineage.Proofs.Graph.Specification

/-!
# Graphs after calls

A graph is built by calls on the empty graph.  It stands for the map and the set after the same
calls (`spec_run`), and what can be seen of it is what these hold (`Shows`): its listings have their
elements in ascending order, a listing of reads or of readers has the pairs at one end, and the
isolated nodes are in no pair.

The map can be told from the calls without the states between them: the name of a table is the first
that it was given (`map_name_run`), and it is a model just if some call made it one
(`exists_model_run_iff`).  So a name never changes and a model stays one.
-/

namespace TableLineage

/-! ## Runs -/

theorem runCalls_singleton {State : Type} (call : State → GraphCall → State × GraphAnswer)
    (state : State) (next : GraphCall) : (runCalls call state [next]).1 = (call state next).1 := rfl

theorem runCalls_append {State : Type} (call : State → GraphCall → State × GraphAnswer)
    (state : State) (first second : List GraphCall) :
    (runCalls call state (first ++ second)).1 =
      (runCalls call (runCalls call state first).1 second).1 := by
  induction first generalizing state with
  | nil => rfl
  | cons next first ih => exact ih (call state next).1

theorem spec_runCalls (graph : LineageGraph) (calls : List GraphCall) :
    runCalls LineageSpec.call graph.spec calls =
      ((runCalls LineageGraph.call graph calls).1.spec,
        (runCalls LineageGraph.call graph calls).2) := by
  induction calls generalizing graph with
  | nil => rfl
  | cons next calls ih =>
      rw [runCalls, LineageGraph.spec_call]
      simp only [ih]
      rfl

/-- A graph and its map and set go through calls alike. -/
theorem spec_run (calls : List GraphCall) :
    LineageSpec.run calls = ((LineageGraph.run calls).1.spec, (LineageGraph.run calls).2) :=
  spec_runCalls LineageGraph.empty calls

namespace LineageSpec

theorem run_append (calls : List GraphCall) (next : GraphCall) :
    (run (calls ++ [next])).1 = ((run calls).1.call next).1 :=
  runCalls_append call empty calls [next]

theorem isSome_of_mem_targets_run {calls : List GraphCall} {key : String}
    (h : key ∈ (run calls).1.targets) : ((run calls).1.entry key).isSome := by
  rw [spec_run] at h ⊢
  exact LineageGraph.isSome_of_mem_targets h

end LineageSpec

/-! ## Names -/

/-- The name that a call gives to a table that is new. -/
def GraphCall.name? (key : String) : GraphCall → Option String
  | .addModel id name | .addSource id name =>
    if key = id.value then some (if name = "" then id.value else name) else none
  | .addDependency _ _ | .promoteTargets => none

namespace LineageSpec

variable {spec : LineageSpec} {key : String}

theorem map_name_addTable (id name : String) (kind : NodeKind) :
    ((spec.addTable id name kind).entry key).map Prod.fst =
      ((spec.entry key).map Prod.fst).or
        (if key = id then some (if name = "" then id else name) else none) := by
  rw [entry_addTable]
  by_cases hkey : key = id
  · subst hkey
    rw [if_pos rfl, if_pos rfl]
    cases spec.entry key <;> rfl
  · rw [if_neg hkey, if_neg hkey, Option.or_none]

/-- A call gives a name to a table that has none. -/
theorem map_name_call (next : GraphCall) :
    ((spec.call next).1.entry key).map Prod.fst =
      ((spec.entry key).map Prod.fst).or (next.name? key) := by
  cases next with
  | addModel id name => exact map_name_addTable id.value name .model
  | addSource id name => exact map_name_addTable id.value name .source
  | addDependency source target =>
      rw [call, GraphCall.name?, Option.or_none]
      split <;> rfl
  | promoteTargets =>
      rw [call, GraphCall.name?, Option.or_none, promote, Option.map_map]
      rfl

/-- The name of a table is the first that it was given. -/
theorem map_name_run (calls : List GraphCall) (key : String) :
    ((run calls).1.entry key).map Prod.fst = calls.findSome? (·.name? key) := by
  induction calls using List.reverseRecOn with
  | nil => rfl
  | append_singleton calls next ih =>
      rw [run_append, map_name_call, ih, List.findSome?_append, List.findSome?_singleton]

/-! ## Kinds -/

/-- Whether a call makes a model of a table. -/
def MakesModel (spec : LineageSpec) (key : String) : GraphCall → Prop
  | .addModel id _ => key = id.value
  | .promoteTargets => key ∈ spec.targets
  | .addSource _ _ | .addDependency _ _ => False

/-- Whether some call made a model of a table. -/
def MadeModel (calls : List GraphCall) (key : String) : Prop :=
  ∃ before next after, calls = before ++ next :: after ∧ (run before).1.MakesModel key next

theorem exists_model_addTable_iff (spec : LineageSpec) (key id name : String) (kind : NodeKind) :
    (∃ first, (spec.addTable id name kind).entry key = some (first, .model)) ↔
      (∃ first, spec.entry key = some (first, .model)) ∨ (key = id ∧ kind = .model) := by
  rw [entry_addTable]
  by_cases hkey : key = id
  · subst hkey
    rw [if_pos rfl]
    cases spec.entry key with
    | none => simp [addedEntry]
    | some entry => cases kind <;> simp [addedEntry, Prod.ext_iff]
  · simp [hkey]

/-- A model stays a model, and a call makes one of the tables that it is for. -/
theorem exists_model_call_iff (hknown : key ∈ spec.targets → (spec.entry key).isSome)
    (next : GraphCall) :
    (∃ name, (spec.call next).1.entry key = some (name, .model)) ↔
      (∃ name, spec.entry key = some (name, .model)) ∨ spec.MakesModel key next := by
  cases next with
  | addModel id name =>
      have htable := exists_model_addTable_iff spec key id.value name .model
      simpa [call, MakesModel] using htable
  | addSource id name =>
      have htable := exists_model_addTable_iff spec key id.value name .source
      simpa [call, MakesModel] using htable
  | addDependency source target =>
      -- a dependency changes no entry
      rw [call, MakesModel, or_false]
      split <;> rfl
  | promoteTargets =>
      rw [call, MakesModel]
      by_cases htarget : key ∈ spec.targets
      · -- a target has an entry, whose kind becomes that of a model
        obtain ⟨⟨name, kind⟩, hentry⟩ := Option.isSome_iff_exists.mp (hknown htarget)
        simp [promote, htarget, hentry]
      · simp [promote, htarget]

theorem madeModel_append_iff (calls : List GraphCall) (next : GraphCall) :
    MadeModel (calls ++ [next]) key ↔ MadeModel calls key ∨ (run calls).1.MakesModel key next := by
  constructor
  · rintro ⟨before, made, after, hcalls, hmakes⟩
    -- the call is the last one, or one before it
    rcases List.eq_nil_or_concat after with rfl | ⟨after, last, rfl⟩
    · obtain ⟨rfl, rfl⟩ := List.append_singleton_inj.mp hcalls
      exact .inr hmakes
    · rw [List.concat_eq_append, ← List.cons_append, ← List.append_assoc] at hcalls
      obtain ⟨rfl, rfl⟩ := List.append_singleton_inj.mp hcalls
      exact .inl ⟨before, made, after, rfl, hmakes⟩
  · rintro (⟨before, made, after, rfl, hmakes⟩ | hmakes)
    · exact ⟨before, made, after ++ [next], by simp, hmakes⟩
    · exact ⟨calls, next, [], rfl, hmakes⟩

/-- A table is a model just if some call made it one. -/
theorem exists_model_run_iff (calls : List GraphCall) (key : String) :
    (∃ name, (run calls).1.entry key = some (name, .model)) ↔ MadeModel calls key := by
  induction calls using List.reverseRecOn with
  | nil =>
      constructor
      · rintro ⟨name, hname⟩
        cases hname
      · rintro ⟨before, made, after, hcalls, -⟩
        simp at hcalls
  | append_singleton calls next ih =>
      rw [run_append, exists_model_call_iff isSome_of_mem_targets_run, ih, madeModel_append_iff]

/-- A call keeps every name, and it changes a kind only by making a model of a source. -/
theorem exists_entry_call (hknown : key ∈ spec.targets → (spec.entry key).isSome) {name : String}
    {kind : NodeKind} (h : spec.entry key = some (name, kind)) (next : GraphCall) :
    ∃ after, (spec.call next).1.entry key = some (name, after) ∧
      (after = kind ∨ kind = .source ∧ after = .model ∧ spec.MakesModel key next) := by
  have hname : ((spec.call next).1.entry key).map Prod.fst = some name := by
    rw [map_name_call, h]
    rfl
  have hmodel := exists_model_call_iff hknown next
  obtain ⟨⟨first, after⟩, hafter, rfl⟩ := Option.map_eq_some_iff.mp hname
  refine ⟨after, hafter, ?_⟩
  simp only [hafter, h, Option.some.injEq, Prod.mk.injEq, exists_eq_left'] at hmodel
  -- a model stays one, and a source becomes one only by a call that makes it one
  cases kind with
  | model => exact .inl (hmodel.mpr (.inl rfl))
  | source =>
      cases after with
      | source => exact .inl rfl
      | model =>
          have hmakes : spec.MakesModel key next :=
            (hmodel.mp rfl).resolve_left fun hsource => by cases hsource
          exact .inr ⟨rfl, rfl, hmakes⟩

end LineageSpec

/-! ## What a graph shows -/

namespace LineageGraph

/-- What can be seen of a graph is what its map and its set hold. -/
structure Shows (graph : LineageGraph) (spec : LineageSpec) : Prop where
  node_eq : ∀ key, (graph.node? key).map (fun node => (node.displayName, node.kind)) =
    spec.entry key
  nodup_ids : graph.ids.Nodup
  nodup_dependencies : graph.dependencies.Nodup
  pairs_known : ∀ source target, (source, target) ∈ spec.pairs →
    source ≠ target ∧ (spec.entry source).isSome ∧ (spec.entry target).isSome
  nodes_ascending : graph.sortedNodes.Pairwise fun a b => a.id < b.id
  mem_nodes : ∀ node, node ∈ graph.sortedNodes ↔
    spec.entry node.id.value = some (node.displayName, node.kind)
  dependencies_ascending : graph.sortedDependencies.Pairwise (· < ·)
  mem_dependencies : ∀ d, d ∈ graph.sortedDependencies ↔
    (d.source.value, d.target.value) ∈ spec.pairs
  dependencyCount_eq : graph.dependencyCount = spec.pairs.card
  mem_reads : ∀ key id, id ∈ graph.directReads key ↔ (id.value, key) ∈ spec.pairs
  mem_readers : ∀ key id, id ∈ graph.directReaders key ↔ (key, id.value) ∈ spec.pairs
  sum_reads : (graph.sortedNodes.map fun node => (graph.directReads node.id.value).length).sum =
    graph.dependencyCount
  sum_readers :
    (graph.sortedNodes.map fun node => (graph.directReaders node.id.value).length).sum =
      graph.dependencyCount
  isolated_eq : graph.isolated.map (·.id.value) = (Diagram.ofGraph graph).isolated.map (·.id)

/-- What the next call does to a graph and answers. -/
structure Responds (graph : LineageGraph) (spec : LineageSpec) : Prop where
  /-- A name stays, and a kind changes from source to model only. -/
  entry_kept : ∀ next key name kind, spec.entry key = some (name, kind) →
    ∃ after, (graph.call next).1.spec.entry key = some (name, after) ∧
      (after = kind ∨ kind = .source ∧ after = .model ∧ spec.MakesModel key next)
  added : ∀ source target, spec.IsNew source target →
    (graph.call (.addDependency source target)).2 = .added true ∧
      (graph.call (.addDependency source target)).1.spec = spec.addPair source target
  unchanged : ∀ source target, ¬ spec.IsNew source target →
    graph.call (.addDependency source target) = (graph, .added false)
  promoted : (graph.call .promoteTargets).1.spec = spec.promote ∧
    (graph.call .promoteTargets).2 = .promoted spec.promoted.card
  promoted_again : (graph.call .promoteTargets).1.call .promoteTargets =
    ((graph.call .promoteTargets).1, .promoted 0)

variable (graph : LineageGraph)

theorem dependencyCount_eq_card : graph.dependencyCount = graph.spec.pairs.card := by
  have hnodup : (graph.dependencies.map fun d => (d.source.value, d.target.value)).Nodup := by
    apply graph.nodup_dependencies.map
    rintro ⟨s, t⟩ ⟨s', t'⟩ heq
    obtain ⟨hsource, htarget⟩ := Prod.mk.inj heq
    exact congrArg₂ Dependency.mk (TableId.ext_value hsource) (TableId.ext_value htarget)
  rw [spec, List.toFinset_card_of_nodup hnodup, List.length_map, dependencyCount]

theorem mem_sortedNodes_iff_entry (node : TableNode) :
    node ∈ graph.sortedNodes ↔
      graph.spec.entry node.id.value = some (node.displayName, node.kind) := by
  rw [mem_sortedNodes, entry_spec]
  constructor
  · intro h
    rw [h]
    rfl
  · intro h
    obtain ⟨other, hother, heq⟩ := Option.map_eq_some_iff.mp h
    obtain ⟨hname, hkind⟩ := Prod.mk.inj heq
    have hid : other.id = node.id := TableId.ext_value (id_value_of_node? hother)
    rw [hother]
    cases other
    cases node
    simp_all

theorem mem_directReads_iff (key : String) (id : TableId) :
    id ∈ graph.directReads key ↔ (id.value, key) ∈ graph.spec.pairs := by
  rw [mem_directReads]
  constructor
  · rintro ⟨d, hd, rfl, rfl⟩
    exact mem_pairs_spec.mpr hd
  · intro h
    obtain ⟨d, hd, hsource, htarget⟩ := exists_of_mem_pairs h
    exact ⟨d, hd, TableId.ext_value hsource, htarget⟩

theorem mem_directReaders_iff (key : String) (id : TableId) :
    id ∈ graph.directReaders key ↔ (key, id.value) ∈ graph.spec.pairs := by
  rw [mem_directReaders]
  constructor
  · rintro ⟨d, hd, rfl, rfl⟩
    exact mem_pairs_spec.mpr hd
  · intro h
    obtain ⟨d, hd, hsource, htarget⟩ := exists_of_mem_pairs h
    exact ⟨d, hd, TableId.ext_value htarget, hsource⟩

theorem shows : graph.Shows graph.spec where
  node_eq := entry_spec graph
  nodup_ids := graph.nodup_ids
  nodup_dependencies := graph.nodup_dependencies
  pairs_known _ _ := known_of_mem_pairs
  nodes_ascending := pairwise_sortedNodes graph
  mem_nodes := mem_sortedNodes_iff_entry graph
  dependencies_ascending := Order.pairwise_ascending _
  mem_dependencies _ := mem_sortedDependencies.trans mem_pairs_spec.symm
  dependencyCount_eq := dependencyCount_eq_card graph
  mem_reads := mem_directReads_iff graph
  mem_readers := mem_directReaders_iff graph
  sum_reads := sum_directReads graph
  sum_readers := sum_directReaders graph
  isolated_eq := map_id_isolated graph

/-- Where all targets are models, a promotion finds nothing. -/
theorem isPromoted_promoteTargets {node : TableNode} (hnode : node ∈ graph.promoteTargets.nodes) :
    graph.promoteTargets.isPromoted node = false := by
  rw [Bool.eq_false_iff, ne_eq, isPromoted_iff, spec_promoteTargets]
  rintro ⟨hkind, htarget⟩
  have hentry :=
    (mem_sortedNodes_iff_entry _ node).mp (mem_sortedNodes.mpr (mem_nodes_iff.mp hnode))
  rw [spec_promoteTargets] at hentry
  obtain ⟨⟨name, kind⟩, -, heq⟩ := Option.map_eq_some_iff.mp hentry
  have hmodel : node.kind = .model := by
    rw [← (Prod.mk.inj heq).2]
    exact if_pos htarget
  rw [hkind] at hmodel
  cases hmodel

theorem responds : graph.Responds graph.spec where
  entry_kept next key name kind hentry := by
    have hcall := LineageSpec.exists_entry_call isSome_of_mem_targets hentry next
    rwa [spec_call] at hcall
  added source target hnew := by
    obtain ⟨d, hd, -, -⟩ := exists_newDependency? hnew
    refine ⟨?_, spec_addDependency hnew⟩
    rw [call, hd]
    rfl
  unchanged source target hold := by
    rw [call, newDependency?_eq_none hold, addDependency_of_none (newDependency?_eq_none hold)]
    rfl
  promoted := by
    refine ⟨spec_promoteTargets graph, ?_⟩
    exact congrArg GraphAnswer.promoted (promotedCount_eq_card graph)
  promoted_again := by
    -- after one promotion no node is left to promote
    have hnone : ∀ node ∈ graph.promoteTargets.nodes,
        graph.promoteTargets.isPromoted node = false := fun _ => isPromoted_promoteTargets graph
    calc graph.promoteTargets.call .promoteTargets
        = (graph.promoteTargets.promoteTargets,
            .promoted graph.promoteTargets.promotedCount) := rfl
      _ = (graph.promoteTargets, .promoted 0) := by
          rw [promoteTargets_eq_self hnone, promotedCount_eq_zero hnone]

end LineageGraph

/-- After any calls a graph stands for the map and the set after these calls, and has given the same
answers.  It shows what these hold and goes on to respond as they do.  The name of a table is
the first that it was given, and it is a model just if some call made it one. -/
theorem graph_refines_map_and_set (calls : List GraphCall) :
    (LineageGraph.run calls).2 = (LineageSpec.run calls).2 ∧
      (LineageGraph.run calls).1.Shows (LineageSpec.run calls).1 ∧
      (LineageGraph.run calls).1.Responds (LineageSpec.run calls).1 ∧
      ∀ key, ((LineageSpec.run calls).1.entry key).map Prod.fst = calls.findSome? (·.name? key) ∧
        ((∃ name, (LineageSpec.run calls).1.entry key = some (name, .model)) ↔
          LineageSpec.MadeModel calls key) := by
  have hhistory := fun key => And.intro (LineageSpec.map_name_run calls key)
    (LineageSpec.exists_model_run_iff calls key)
  refine ⟨?_, ?_, ?_, hhistory⟩
  · rw [spec_run]
  · rw [spec_run]
    exact LineageGraph.shows _
  · rw [spec_run]
    exact LineageGraph.responds _

end TableLineage
