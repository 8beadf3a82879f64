import TableLineage.Proofs.Graph.Paths
import TableLineage.Proofs.Graph.Rebuilding

/-!
# The neighbourhood of a table

The neighbourhood of a table is the part of the graph around it: the table, what it reads and what
reads it, or one of the two, with all dependencies between them
(`neighbourhood_is_induced_and_stable`).  It lists the same reads and readers as the graph on the
sides that were followed, and its own neighbourhood is the neighbourhood again.

A path to the table keeps to the tables that read it through others, all of which the part holds, so
that no path is cut (`transGen_within_iff`).  That is where cycles could do harm: a path may leave
through a reader and come back, but every table on it still has a path to its end.

A neighbourhood is a graph like any other.  Adding its tables and then its dependencies to the empty
graph gives it back, since no table has the empty name (`run_rebuildingCalls`).
-/

namespace TableLineage

open Relation (ReflTransGen TransGen)

/-! ## Paths inside a part -/

/-- A path keeps to a part that holds all that can be reached from its start. -/
theorem transGen_within_iff {α : Type} {step : α → α → Prop} {keep : α → Prop} {start b : α}
    (hkeep : ∀ c, ReflTransGen step start c → keep c) :
    TransGen (fun a c => step a c ∧ keep a ∧ keep c) start b ↔ TransGen step start b := by
  constructor
  · intro hpath
    induction hpath with
    | single h => exact .single h.1
    | tail _ h ih => exact ih.tail h.1
  · intro hpath
    induction hpath with
    | single h => exact .single ⟨h, hkeep _ .refl, hkeep _ (.single h)⟩
    | tail hpath h ih =>
        have hto := hpath.to_reflTransGen
        exact ih.tail ⟨h, hkeep _ hto, hkeep _ (hto.tail h)⟩

namespace LineageGraph

variable {graph : LineageGraph} {keep : TableId → Bool} {key : String} {start id : TableId}
  {direction : Direction}

/-! ## Parts of a graph -/

theorem mem_nodes_restrict {node : TableNode} :
    node ∈ (graph.restrict keep).nodes ↔ node ∈ graph.nodes ∧ keep node.id = true :=
  List.mem_filter

theorem mem_ids_restrict : id ∈ (graph.restrict keep).ids ↔ id ∈ graph.ids ∧ keep id = true := by
  simp only [ids, List.mem_map, mem_nodes_restrict]
  constructor
  · rintro ⟨node, ⟨hnode, hkeep⟩, rfl⟩
    exact ⟨⟨node, hnode, rfl⟩, hkeep⟩
  · rintro ⟨⟨node, hnode, rfl⟩, hkeep⟩
    exact ⟨node, ⟨hnode, hkeep⟩, rfl⟩

theorem mem_dependencies_restrict {d : Dependency} :
    d ∈ (graph.restrict keep).dependencies ↔
      d ∈ graph.dependencies ∧ keep d.source = true ∧ keep d.target = true := by
  rw [restrict, List.mem_filter, Bool.and_eq_true]

theorem find_restrict (hfind : graph.find key = .ok start) (hkeep : keep start = true) :
    (graph.restrict keep).find key = .ok start := by
  rw [find_eq_ok_iff] at hfind ⊢
  exact ⟨mem_ids_restrict.mpr ⟨hfind.1, hkeep⟩, hfind.2⟩

/-- A part that leaves nothing out is the graph. -/
theorem restrict_eq_self (h : ∀ id ∈ graph.ids, keep id = true) : graph.restrict keep = graph := by
  apply eq_of_lists
  · apply List.filter_eq_self.mpr
    intro node hnode
    exact h node.id (List.mem_map_of_mem hnode)
  · apply List.filter_eq_self.mpr
    intro d hd
    obtain ⟨hsource, htarget, -⟩ := graph.known d hd
    rw [h d.source hsource, h d.target htarget]
    rfl

theorem feeds_restrict {a b : TableId} :
    (graph.restrict keep).Feeds a b ↔ graph.Feeds a b ∧ keep a = true ∧ keep b = true :=
  mem_dependencies_restrict

/-- A part with all tables on the paths from a table has the same descendants of it. -/
theorem mem_descendants_restrict
    (hkeep : ∀ other, ReflTransGen graph.Feeds start other → keep other = true) :
    id ∈ (graph.restrict keep).descendants start ↔ id ∈ graph.descendants start := by
  have hfeeds : (graph.restrict keep).Feeds =
      fun a b => graph.Feeds a b ∧ keep a = true ∧ keep b = true := by
    funext a b
    exact propext feeds_restrict
  rw [mem_descendants_iff, mem_descendants_iff, hfeeds, transGen_within_iff hkeep]

/-- The same for its ancestors: a path to the table is a path from it against the dependencies. -/
theorem mem_ancestors_restrict
    (hkeep : ∀ other, ReflTransGen graph.Feeds other start → keep other = true) :
    id ∈ (graph.restrict keep).ancestors start ↔ id ∈ graph.ancestors start := by
  have hfeeds : Function.swap (graph.restrict keep).Feeds =
      fun a b => Function.swap graph.Feeds a b ∧ keep a = true ∧ keep b = true := by
    funext a b
    exact propext (feeds_restrict.trans (and_congr_right fun _ => and_comm))
  have hback : ∀ other, ReflTransGen (Function.swap graph.Feeds) start other →
      keep other = true := by
    intro other hpath
    exact hkeep other (Relation.reflTransGen_swap.mp hpath)
  have hpaths : TransGen (graph.restrict keep).Feeds id start ↔ TransGen graph.Feeds id start := by
    rw [← Relation.transGen_swap, hfeeds, transGen_within_iff hback, Relation.transGen_swap]
  calc id ∈ (graph.restrict keep).ancestors start
      ↔ id ≠ start ∧ TransGen (graph.restrict keep).Feeds id start := mem_ancestors_iff
    _ ↔ id ≠ start ∧ TransGen graph.Feeds id start := and_congr_right fun _ => hpaths
    _ ↔ id ∈ graph.ancestors start := mem_ancestors_iff.symm

/-! ## The tables around a table -/

theorem mem_around_iff :
    id ∈ graph.around start direction ↔
      id = start ∨ (direction ≠ .readers ∧ id ∈ graph.ancestors start) ∨
        (direction ≠ .reads ∧ id ∈ graph.descendants start) := by
  cases direction <;> simp [around]

theorem mem_around_of_path_to (hdirection : direction ≠ .readers)
    (hpath : ReflTransGen graph.Feeds id start) : id ∈ graph.around start direction := by
  rw [mem_around_iff, mem_ancestors_iff]
  by_cases hid : id = start
  · exact .inl hid
  · rcases Relation.reflTransGen_iff_eq_or_transGen.mp hpath with heq | hpath
    · exact .inl heq.symm
    · exact .inr (.inl ⟨hdirection, hid, hpath⟩)

theorem mem_around_of_path_from (hdirection : direction ≠ .reads)
    (hpath : ReflTransGen graph.Feeds start id) : id ∈ graph.around start direction := by
  rw [mem_around_iff, mem_descendants_iff]
  by_cases hid : id = start
  · exact .inl hid
  · rcases Relation.reflTransGen_iff_eq_or_transGen.mp hpath with heq | hpath
    · exact .inl heq
    · exact .inr (.inr ⟨hdirection, hid, hpath⟩)

/-- The part of a graph around a table. -/
def partAround (graph : LineageGraph) (start : TableId) (direction : Direction) : LineageGraph :=
  graph.restrict fun id => (graph.around start direction).contains id

theorem mem_ancestors_partAround (hdirection : direction ≠ .readers) :
    id ∈ (graph.partAround start direction).ancestors start ↔ id ∈ graph.ancestors start := by
  apply mem_ancestors_restrict
  intro other hpath
  exact List.contains_iff_mem.mpr (mem_around_of_path_to hdirection hpath)

theorem mem_descendants_partAround (hdirection : direction ≠ .reads) :
    id ∈ (graph.partAround start direction).descendants start ↔ id ∈ graph.descendants start := by
  apply mem_descendants_restrict
  intro other hpath
  exact List.contains_iff_mem.mpr (mem_around_of_path_from hdirection hpath)

/-- The tables around a table are the same in the graph and in the part around it. -/
theorem mem_around_partAround :
    id ∈ (graph.partAround start direction).around start direction ↔
      id ∈ graph.around start direction := by
  rw [mem_around_iff, mem_around_iff]
  apply or_congr Iff.rfl
  apply or_congr
  · exact and_congr_right mem_ancestors_partAround
  · exact and_congr_right mem_descendants_partAround

/-- The part around a table is its own part around the table. -/
theorem partAround_partAround :
    (graph.partAround start direction).partAround start direction =
      graph.partAround start direction := by
  apply restrict_eq_self
  intro id hid
  obtain ⟨-, hkept⟩ := mem_ids_restrict.mp hid
  rw [List.contains_iff_mem] at hkept ⊢
  exact mem_around_partAround.mpr hkept

/-! ## The neighbourhood -/

section Known

variable (hfind : graph.find key = .ok start)

include hfind

theorem neighbourhood_eq_ok (direction : Direction) :
    graph.neighbourhood key direction = .ok (graph.partAround start direction) := by
  rw [neighbourhood, hfind]
  rfl

theorem reads_eq_ok : graph.reads key = .ok (Order.ascending (graph.ancestors start)) := by
  rw [reads, hfind]
  rfl

theorem readers_eq_ok : graph.readers key = .ok (Order.ascending (graph.descendants start)) := by
  rw [readers, hfind]
  rfl

theorem find_partAround (direction : Direction) :
    (graph.partAround start direction).find key = .ok start := by
  apply find_restrict hfind
  exact List.contains_iff_mem.mpr (mem_around_iff.mpr (.inl rfl))

theorem reads_partAround (hdirection : direction ≠ .readers) :
    (graph.partAround start direction).reads key = graph.reads key := by
  rw [reads_eq_ok hfind, reads_eq_ok (find_partAround hfind direction)]
  exact congrArg Except.ok (Order.ascending_congr fun _ => mem_ancestors_partAround hdirection)

theorem readers_partAround (hdirection : direction ≠ .reads) :
    (graph.partAround start direction).readers key = graph.readers key := by
  rw [readers_eq_ok hfind, readers_eq_ok (find_partAround hfind direction)]
  exact congrArg Except.ok (Order.ascending_congr fun _ => mem_descendants_partAround hdirection)

/-- The tables around a table are listed by its reads and its readers. -/
theorem mem_around_iff_isListed :
    id ∈ graph.around start direction ↔
      id.value = key ∨ (direction ≠ .readers ∧ IsListed id (graph.reads key)) ∨
        (direction ≠ .reads ∧ IsListed id (graph.readers key)) := by
  have hstart : start.value = key := (find_eq_ok_iff.mp hfind).2
  rw [mem_around_iff, reads_eq_ok hfind, readers_eq_ok hfind, ← hstart, TableId.value_inj]
  simp only [IsListed, Except.ok.injEq, exists_eq_left', Order.mem_ascending]

end Known

/-! ## The theorem -/

/-- A part holds the tables of a graph with some ids, as they are there, and the dependencies
between them. -/
structure IsInducedBy (part graph : LineageGraph) (kept : TableId → Prop) : Prop where
  mem_nodes : ∀ node, node ∈ part.sortedNodes ↔ node ∈ graph.sortedNodes ∧ kept node.id
  mem_dependencies : ∀ d, d ∈ part.sortedDependencies ↔
    d ∈ graph.sortedDependencies ∧ kept d.source ∧ kept d.target

theorem isInducedBy_restrict {kept : TableId → Prop} (h : ∀ id, keep id = true ↔ kept id) :
    (graph.restrict keep).IsInducedBy graph kept where
  mem_nodes node := by
    rw [mem_sortedNodes, ← mem_nodes_iff, mem_nodes_restrict, mem_sortedNodes, ← mem_nodes_iff, h]
  mem_dependencies d := by
    rw [mem_sortedDependencies, mem_dependencies_restrict, mem_sortedDependencies, h, h]

end LineageGraph

/-- **The neighbourhood is the part of the graph around a table, and it is stable.**  After any
calls, the neighbourhood of a known table is the part with the table and what is listed on the sides
that are followed.  On these sides it lists the same reads and readers as the graph, its
neighbourhood is the neighbourhood itself, and it is what its own tables and dependencies build when
they are added to the empty graph. -/
theorem neighbourhood_is_induced_and_stable (calls : List GraphCall) (key : String)
    (direction : Direction) (hknown : (LineageGraph.run calls).1.contains key = true) :
    ∃ part, (LineageGraph.run calls).1.neighbourhood key direction = .ok part ∧
      part.IsInducedBy (LineageGraph.run calls).1 (fun id => id.value = key ∨
        (direction ≠ .readers ∧ IsListed id ((LineageGraph.run calls).1.reads key)) ∨
        (direction ≠ .reads ∧ IsListed id ((LineageGraph.run calls).1.readers key))) ∧
      (direction ≠ .readers → part.reads key = (LineageGraph.run calls).1.reads key) ∧
      (direction ≠ .reads → part.readers key = (LineageGraph.run calls).1.readers key) ∧
      part.neighbourhood key direction = .ok part ∧
      (LineageGraph.run part.rebuildingCalls).1 = part := by
  obtain ⟨start, hfind⟩ := LineageGraph.exists_find_eq_ok hknown
  refine ⟨(LineageGraph.run calls).1.partAround start direction,
    LineageGraph.neighbourhood_eq_ok hfind direction, ?_, LineageGraph.reads_partAround hfind,
    LineageGraph.readers_partAround hfind, ?_, ?_⟩
  · apply LineageGraph.isInducedBy_restrict
    intro id
    rw [List.contains_iff_mem, LineageGraph.mem_around_iff_isListed hfind]
  · rw [LineageGraph.neighbourhood_eq_ok (LineageGraph.find_partAround hfind direction),
      LineageGraph.partAround_partAround]
  · apply LineageGraph.run_rebuildingCalls
    intro node hnode
    exact LineageGraph.displayName_ne_empty_of_mem_run (LineageGraph.mem_nodes_restrict.mp hnode).1

/-- Two tables that read each other, one that reads both of them, and one that nothing reads or
feeds. -/
def loopedCalls : List GraphCall :=
  let table (name : String) (h : name ≠ "") : GraphCall := .addModel ⟨name, h⟩ ""
  [table "a" (by decide), table "b" (by decide), table "c" (by decide), table "d" (by decide),
    .addDependency "a" "b", .addDependency "b" "a", .addDependency "a" "c", .addDependency "b" "c"]

/-- What a table on a cycle reads is the cycle, and that is kept with its paths. -/
theorem neighbourhood_of_looped_table :
    (LineageGraph.run loopedCalls).1.contains "a" = true ∧
      ∃ part, (LineageGraph.run loopedCalls).1.neighbourhood "a" .reads = .ok part ∧
        part.ids.map (·.value) = ["a", "b"] ∧
        part.reads "a" = (LineageGraph.run loopedCalls).1.reads "a" ∧
        part.neighbourhood "a" .reads = .ok part ∧
        (LineageGraph.run part.rebuildingCalls).1 = part := by
  have hknown : (LineageGraph.run loopedCalls).1.contains "a" = true := by decide
  obtain ⟨part, hpart, -, hreads, -, hstable, hrebuilt⟩ :=
    neighbourhood_is_induced_and_stable loopedCalls "a" .reads hknown
  refine ⟨hknown, part, hpart, ?_, hreads (by decide), hstable, hrebuilt⟩
  have hids : ((LineageGraph.run loopedCalls).1.neighbourhood "a" .reads).toOption.map
      (·.ids.map (·.value)) = some ["a", "b"] := by cbv
  rw [hpart] at hids
  exact Option.some.inj hids

end TableLineage
