import TableLineage.Proofs.Graph.History
import TableLineage.Proofs.Graph.Reachability

/-!
# Reads and readers are paths

The tables that a table reads are those with a path of dependencies to it, and the tables that read
it are those to which it has one (`reads_and_readers_are_paths`).  The paths are paths of pairs in
the set that the graph stands for, whatever calls it was built by.  A table on a cycle has a path to
itself, but it is not listed.

Both listings have one shape (`IsListing`): the ids with a property in ascending order, the table
itself left out, or the error that the graph does not hold the table.  The two walks differ in the
direction of the paths only, which is why one listing can be told from the other.
-/

namespace TableLineage

open Relation (TransGen)

/-! ## Paths -/

/-- There is a path of pairs from one id to another, of one pair or more. -/
def LineageSpec.HasPath (spec : LineageSpec) : String → String → Prop :=
  TransGen fun source target => (source, target) ∈ spec.pairs

namespace LineageGraph

variable {graph : LineageGraph} {key : String} {start id : TableId}

theorem feeds_iff_mem_pairs {a b : TableId} :
    graph.Feeds a b ↔ (a.value, b.value) ∈ graph.spec.pairs :=
  mem_pairs_spec.symm

/-- The pairs of the set are dependencies between ids, so their paths are the paths between ids. -/
theorem hasPath_iff {a b : TableId} :
    graph.spec.HasPath a.value b.value ↔ TransGen graph.Feeds a b := by
  constructor
  · -- by induction on the path, whose last pair is that of a dependency
    have hids : ∀ {source target : String}, graph.spec.HasPath source target →
        ∀ a b : TableId, a.value = source → b.value = target → TransGen graph.Feeds a b := by
      intro source target hpath
      induction hpath with
      | single hpair =>
          rintro a b rfl rfl
          exact .single (feeds_iff_mem_pairs.mpr hpair)
      | tail _ hpair ih =>
          rintro a b rfl rfl
          obtain ⟨d, hd, rfl, htarget⟩ := exists_of_mem_pairs hpair
          obtain rfl := TableId.ext_value htarget
          exact (ih a d.source rfl rfl).tail hd
    intro hpath
    exact hids hpath a b rfl rfl
  · intro hpath
    induction hpath with
    | single hfeeds => exact .single (feeds_iff_mem_pairs.mp hfeeds)
    | tail _ hfeeds ih => exact ih.tail (feeds_iff_mem_pairs.mp hfeeds)

/-- The ends of a path are tables of the graph. -/
theorem known_of_hasPath {source target : String} (h : graph.spec.HasPath source target) :
    (graph.spec.entry source).isSome ∧ (graph.spec.entry target).isSome := by
  induction h with
  | single hpair => exact (known_of_mem_pairs hpair).2
  | tail _ hpair ih => exact ⟨ih.1, (known_of_mem_pairs hpair).2.2⟩

/-! ## Finding the table -/

theorem find_eq_ok_iff : graph.find key = .ok start ↔ start ∈ graph.ids ∧ start.value = key := by
  rw [find]
  constructor
  · intro h
    split at h
    case h_1 node hnode =>
        obtain rfl := Except.ok.inj h
        exact ⟨List.mem_map_of_mem (mem_nodes_of_node? hnode), id_value_of_node? hnode⟩
    case h_2 => cases h
  · rintro ⟨hmem, rfl⟩
    obtain ⟨node, hnode⟩ := Option.isSome_iff_exists.mp (mem_ids_iff.mp hmem)
    have hid : node.id = start := TableId.ext_value (id_value_of_node? hnode)
    rw [hnode, ← hid]

theorem exists_find_eq_ok (h : (graph.node? key).isSome) : ∃ start, graph.find key = .ok start := by
  obtain ⟨node, hnode⟩ := Option.isSome_iff_exists.mp h
  exact ⟨node.id, by rw [find, hnode]⟩

theorem find_eq_error (h : graph.node? key = none) : graph.find key = .error ⟨key⟩ := by
  rw [find, h]

end LineageGraph

/-! ## Listings -/

/-- What a listing for a table answers: the other ids with a property in ascending order, or the
error that the table is not known. -/
structure IsListing (spec : LineageSpec) (key : String) (listed : String → Prop)
    (answer : Except TableNotFound (List TableId)) : Prop where
  of_known : (spec.entry key).isSome → ∃ ids, answer = .ok ids ∧ ids.Pairwise (· < ·) ∧
    ∀ id, id ∈ ids ↔ id.value ≠ key ∧ listed id.value
  of_unknown : spec.entry key = none → answer = .error ⟨key⟩

namespace LineageGraph

variable {graph : LineageGraph} {key : String}

/-- A walk from the table gives a listing, if it reaches the other ids with the property. -/
theorem isListing_walk {walk : TableId → List TableId} {listed : String → Prop}
    (hwalk : ∀ start id : TableId, start.value = key →
      (id ∈ walk start ↔ id ≠ start ∧ listed id.value)) :
    IsListing graph.spec key listed
      ((graph.find key).map fun start => Order.ascending (walk start)) where
  of_known hknown := by
    obtain ⟨start, hfind⟩ := exists_find_eq_ok (isSome_entry_spec.mp hknown)
    have hstart : start.value = key := (find_eq_ok_iff.mp hfind).2
    refine ⟨Order.ascending (walk start), by rw [hfind]; rfl, Order.pairwise_ascending _, ?_⟩
    intro id
    rw [Order.mem_ascending, hwalk start id hstart, ne_eq, ne_eq, ← hstart, TableId.value_inj]
  of_unknown hunknown := by
    have hnode : graph.node? key = none := by
      rwa [entry_spec, Option.map_eq_none_iff] at hunknown
    rw [find_eq_error hnode]
    rfl

theorem isListing_reads (graph : LineageGraph) (key : String) :
    IsListing graph.spec key (fun id => graph.spec.HasPath id key) (graph.reads key) := by
  apply isListing_walk
  rintro start id rfl
  rw [mem_ancestors_iff, hasPath_iff]

theorem isListing_readers (graph : LineageGraph) (key : String) :
    IsListing graph.spec key (fun id => graph.spec.HasPath key id) (graph.readers key) := by
  apply isListing_walk
  rintro start id rfl
  rw [mem_descendants_iff, hasPath_iff]

end LineageGraph

/-- Whether an answer is a list that holds an id. -/
def IsListed (id : TableId) (answer : Except TableNotFound (List TableId)) : Prop :=
  ∃ ids, answer = .ok ids ∧ id ∈ ids

/-- What is listed for a table is known by the listing alone. -/
theorem IsListing.isListed_iff {spec : LineageSpec} {key : String} {listed : String → Prop}
    {answer : Except TableNotFound (List TableId)} (h : IsListing spec key listed answer)
    (hknown : ∀ id, listed id → (spec.entry key).isSome) {id : TableId} :
    IsListed id answer ↔ id.value ≠ key ∧ listed id.value := by
  cases hentry : spec.entry key with
  | none =>
      rw [h.of_unknown hentry]
      constructor
      · rintro ⟨ids, hids, -⟩
        cases hids
      · rintro ⟨-, hlisted⟩
        have hsome := hknown id.value hlisted
        rw [hentry] at hsome
        cases hsome
  | some entry =>
      obtain ⟨ids, rfl, -, hmem⟩ := h.of_known (by rw [hentry]; rfl)
      simp only [IsListed, Except.ok.injEq, exists_eq_left', hmem]

/-- After any calls, a table is listed among the reads of another just if it has a path to it, and
among its readers just if it has a path from it, in ascending order.  The table itself is not
listed, cyclic or not, and the error is that of an id without a table.  So each listing tells the
other. -/
theorem reads_and_readers_are_paths (calls : List GraphCall) :
    (∀ key, IsListing (LineageSpec.run calls).1 key
        (fun id => (LineageSpec.run calls).1.HasPath id key)
        ((LineageGraph.run calls).1.reads key)) ∧
      (∀ key, IsListing (LineageSpec.run calls).1 key
        (fun id => (LineageSpec.run calls).1.HasPath key id)
        ((LineageGraph.run calls).1.readers key)) ∧
      ∀ a b : TableId, IsListed a ((LineageGraph.run calls).1.reads b.value) ↔
        IsListed b ((LineageGraph.run calls).1.readers a.value) := by
  rw [spec_run]
  have hreads := LineageGraph.isListing_reads (LineageGraph.run calls).1
  have hreaders := LineageGraph.isListing_readers (LineageGraph.run calls).1
  refine ⟨hreads, hreaders, ?_⟩
  intro a b
  -- each of the two lists is about the same paths, seen from its end
  have hsource : IsListed a ((LineageGraph.run calls).1.reads b.value) ↔
      a.value ≠ b.value ∧ (LineageGraph.run calls).1.spec.HasPath a.value b.value :=
    (hreads b.value).isListed_iff fun _ hpath => (LineageGraph.known_of_hasPath hpath).2
  have htarget : IsListed b ((LineageGraph.run calls).1.readers a.value) ↔
      b.value ≠ a.value ∧ (LineageGraph.run calls).1.spec.HasPath a.value b.value :=
    (hreaders a.value).isListed_iff fun _ hpath => (LineageGraph.known_of_hasPath hpath).1
  rw [hsource, htarget, ne_comm]

end TableLineage
