import TableLineage.Proofs.Graph.Listings
import TableLineage.Proofs.Graph.Reachability
import TableLineage.Proofs.Lineage.SetLevel
import TableLineage.Proofs.Sql.Registrations

/-!
# A build does not depend on the order of its inputs

If all paths differ, sorting by path leaves one order of the files and of the skipped files, and the
whole outcome of a build is the same for every order of the inputs.

If paths repeat, files with one path keep the order in which they are handed in, and that shows in
display names, in the list of files and in the order of warnings.  It does not show in the ids, the
kinds, the dependencies and the cycles: by `SetLevel.lean` these are sets that the reads of the
files determine, a read depends on its own file and on the catalog, and by `Registrations.lean` the
catalog only depends on the set of files.
-/

namespace TableLineage

/-- The path of a file that was handed in; the empty path for an error that concerns no file. -/
def inputPath : Except SourceError SqlSource → Path
  | .ok source => source.path
  | .error error => error.path

variable {inputs others : List (Except SourceError SqlSource)}

/-! ## Inputs with different paths -/

/-- The inputs are the errors and the sources. -/
theorem perm_errors_sources (inputs : List (Except SourceError SqlSource)) :
    inputs.Perm ((inputErrors inputs).map Except.error ++
      (inputs.filterMap fun input => input.toOption).map Except.ok) := by
  induction inputs with
  | nil => exact .refl _
  | cons input inputs ih =>
      cases input with
      | error error => exact ih.cons _
      | ok source => exact (ih.cons _).trans List.perm_middle.symm

theorem inputErrors_perm (h : inputs.Perm others) :
    (inputErrors inputs).Perm (inputErrors others) :=
  h.filterMap _

/-- Sources have one order by path. -/
theorem sortedSources_congr (h : inputs.Perm others)
    (hdiffer : inputs.Pairwise fun a b => (inputPath a).same (inputPath b) = false) :
    sortedSources inputs = sortedSources others := by
  apply Path.sortBy_congr _ (h.filterMap _)
  refine List.pairwise_filterMap.mpr (hdiffer.imp ?_)
  intro a b hne source hsource other hother
  cases a with
  | error => cases hsource
  | ok first =>
      cases b with
      | error => cases hother
      | ok second =>
          cases hsource
          cases hother
          exact hne

/-- The files that a build skips, in the order in which they are found out. -/
def skippedFiles (naming : TableNaming) (inputs : List (Except SourceError SqlSource)) :
    List SkippedFile :=
  (inputErrors inputs).map SkippedFile.ofError ++
    (unnamedPaths naming inputs).map fun path => ⟨path, .unnamed⟩

theorem pairwise_skippedFiles (naming : TableNaming)
    (hdiffer : inputs.Pairwise fun a b => (inputPath a).same (inputPath b) = false) :
    (skippedFiles naming inputs).Pairwise fun a b => a.path.same b.path = false := by
  have hsymm : ∀ {a b : Path}, a.same b = false → b.same a = false :=
    fun {a b} h => (Path.same_comm b a).trans h
  -- sorted by kind, the paths of the inputs still differ
  have hinputs : ((inputErrors inputs).map SourceError.path ++
      (sortedSources inputs).map SqlSource.path).Pairwise fun a b => a.same b = false := by
    have hpaths : (inputs.map inputPath).Perm ((inputErrors inputs).map SourceError.path ++
        (sortedSources inputs).map SqlSource.path) := by
      calc (inputs.map inputPath).Perm _ := (perm_errors_sources inputs).map inputPath
        _ = (inputErrors inputs).map SourceError.path ++
            (inputs.filterMap fun input => input.toOption).map SqlSource.path := by
          rw [List.map_append, List.map_map, List.map_map]
          rfl
        _ |>.Perm _ := ((Path.sortBy_perm _ _).map SqlSource.path).symm.append_left _
    exact (hpaths.pairwise_iff hsymm).mp (List.pairwise_map.mpr hdiffer)
  have hpaths : (skippedFiles naming inputs).map SkippedFile.path =
      (inputErrors inputs).map SourceError.path ++ unnamedPaths naming inputs := by
    rw [skippedFiles, List.map_append, List.map_map, List.map_map]
    simp [Function.comp_def, SkippedFile.ofError]
  have hunnamed : (unnamedPaths naming inputs).Sublist
      ((sortedSources inputs).map SqlSource.path) :=
    List.filter_sublist.map _
  have hskipped := hinputs.sublist ((List.Sublist.refl _).append hunnamed)
  rw [← hpaths] at hskipped
  exact List.pairwise_map.mp hskipped

/-- Where all paths differ, a build does not depend on the order of the inputs. -/
theorem buildLineage_congr (dialect : Sql.Dialect) (naming : TableNaming)
    (h : inputs.Perm others)
    (hdiffer : inputs.Pairwise fun a b => (inputPath a).same (inputPath b) = false) :
    buildLineage dialect naming inputs = buildLineage dialect naming others := by
  have hsources : sortedSources inputs = sortedSources others := sortedSources_congr h hdiffer
  have hnamed : namedSources naming inputs = namedSources naming others := by
    simp only [namedSources, hsources]
  have hunnamed : unnamedPaths naming inputs = unnamedPaths naming others := by
    simp only [unnamedPaths, hsources]
  have hskipped : Path.sortBy (·.path) (skippedFiles naming inputs) =
      Path.sortBy (·.path) (skippedFiles naming others) := by
    refine Path.sortBy_congr _ ?_ (pairwise_skippedFiles naming hdiffer)
    rw [skippedFiles, skippedFiles, hunnamed]
    exact ((inputErrors_perm h).map _).append_right _
  simp only [skippedFiles] at hskipped
  simp only [buildLineage, hnamed, hskipped, h.length_eq]

/-! ## Inputs with any paths -/

/-- A file as it is entered in the catalog. -/
def NamedSource.registration (file : NamedSource) : Sql.Registration :=
  ⟨file.id.value, file.source.stem?.getD file.id.value⟩

theorem catalogOf_eq (files : List NamedSource) :
    catalogOf files = .ofRegistrations (files.map NamedSource.registration) := by
  rw [catalogOf, Sql.ModelCatalog.ofRegistrations, List.foldl_map]
  rfl

section SameFiles

variable {named same : List NamedSource} (dialect : Sql.Dialect)

/-- A site reads the same tables in catalogs of the same files. -/
theorem reads_congr (h : ∀ file, file ∈ named ↔ file ∈ same) (table : TableId)
    (site : ReferenceSite) :
    site.reads (catalogOf named) table = site.reads (catalogOf same) table := by
  have hregistrations : ∀ r, r ∈ named.map NamedSource.registration ↔
      r ∈ same.map NamedSource.registration := by
    simp only [List.mem_map, h, implies_true]
  rw [ReferenceSite.reads, ReferenceSite.reads, catalogOf_eq, catalogOf_eq,
    Sql.resolve_congr hregistrations]

theorem mem_ids_walkedGraph_congr (h : ∀ file, file ∈ named ↔ file ∈ same) (table : TableId) :
    table ∈ (walkedGraph dialect named).ids ↔ table ∈ (walkedGraph dialect same).ids := by
  simp only [mem_ids_walkedGraph, mem_referenceSites, h, reads_congr h]

theorem mem_dependencies_walkedGraph_congr (h : ∀ file, file ∈ named ↔ file ∈ same)
    (d : Dependency) :
    d ∈ (walkedGraph dialect named).dependencies ↔
      d ∈ (walkedGraph dialect same).dependencies := by
  simp only [mem_dependencies_walkedGraph, mem_referenceSites, h, reads_congr h]

/-- What is left of a node without its name. -/
def TableNode.idAndKind (node : TableNode) : TableId × NodeKind :=
  (node.id, node.kind)

theorem mem_idAndKind_walkedGraph (files : List NamedSource) (table : TableId) (kind : NodeKind) :
    (table, kind) ∈ (walkedGraph dialect files).sortedNodes.map TableNode.idAndKind ↔
      table ∈ (walkedGraph dialect files).ids ∧
        (kind = .model ↔ ∃ file ∈ files, file.id = table) := by
  rw [((LineageGraph.perm_sortedNodes _).map _).mem_iff, List.mem_map]
  constructor
  · rintro ⟨node, hnode, hpair⟩
    obtain ⟨rfl, rfl⟩ := Prod.mk.inj hpair
    exact ⟨List.mem_map_of_mem hnode, model_iff_produced dialect files hnode⟩
  · rintro ⟨hid, hkind⟩
    obtain ⟨node, hnode, rfl⟩ := List.mem_map.mp hid
    refine ⟨node, hnode, Prod.ext rfl ?_⟩
    -- there are two kinds, so that being a model or not settles the kind
    have hsame := (model_iff_produced dialect files hnode).trans hkind.symm
    show node.kind = kind
    cases hleft : node.kind <;> cases kind <;> simp_all

theorem map_idAndKind_congr (h : ∀ file, file ∈ named ↔ file ∈ same) :
    (walkedGraph dialect named).sortedNodes.map TableNode.idAndKind =
      (walkedGraph dialect same).sortedNodes.map TableNode.idAndKind := by
  have hascending : ∀ graph : LineageGraph,
      (graph.sortedNodes.map TableNode.idAndKind).Pairwise fun a b => a.1 < b.1 :=
    fun graph => List.pairwise_map.mpr (LineageGraph.pairwise_sortedNodes graph)
  have hirrefl : Std.Irrefl fun a b : TableId × NodeKind => a.1 < b.1 :=
    ⟨fun a => Std.Irrefl.irrefl a.1⟩
  have hantisymm : Std.Antisymm fun a b : TableId × NodeKind => a.1 < b.1 :=
    ⟨fun a b hab hba => absurd (Trans.trans hab hba) (Std.Irrefl.irrefl a.1)⟩
  apply (hascending _).eq_of_mem_iff (hascending _)
  rintro ⟨table, kind⟩
  simp only [mem_idAndKind_walkedGraph, mem_ids_walkedGraph_congr dialect h, h]

end SameFiles

theorem graph_buildLineage (dialect : Sql.Dialect) (naming : TableNaming)
    (inputs : List (Except SourceError SqlSource)) :
    (buildLineage dialect naming inputs).graph =
      walkedGraph dialect (namedSources naming inputs) :=
  LineageGraph.promoteTargets_eq_self fun _ => isPromoted_walkedGraph dialect _

theorem mem_namedSources_congr (naming : TableNaming) (h : inputs.Perm others)
    (file : NamedSource) :
    file ∈ namedSources naming inputs ↔ file ∈ namedSources naming others := by
  have hperm := fun files => (isNamedInPathOrder_namedSources naming files).perm
  rw [(hperm inputs).mem_iff, (hperm others).mem_iff]
  exact (h.filterMap _).mem_iff

/-- Two graphs have the same ids, kinds, dependencies and cycles, each listed in ascending order. -/
structure SameUpToNames (a b : LineageGraph) : Prop where
  nodes : a.sortedNodes.map TableNode.idAndKind = b.sortedNodes.map TableNode.idAndKind
  dependencies : a.sortedDependencies = b.sortedDependencies
  cycles : a.cycles = b.cycles

theorem sameUpToNames_buildLineage (dialect : Sql.Dialect) (naming : TableNaming)
    (h : inputs.Perm others) :
    SameUpToNames (buildLineage dialect naming inputs).graph
      (buildLineage dialect naming others).graph := by
  have hnamed := mem_namedSources_congr naming h
  rw [graph_buildLineage, graph_buildLineage]
  exact {
    nodes := map_idAndKind_congr dialect hnamed
    dependencies := Order.ascending_congr (mem_dependencies_walkedGraph_congr dialect hnamed)
    cycles := LineageGraph.cycles_congr (mem_ids_walkedGraph_congr dialect hnamed)
      (mem_dependencies_walkedGraph_congr dialect hnamed) }

/-- The lineage of files does not depend on the order in which they are handed in: where all paths
differ, nothing of the outcome does, and in any case the ids, the kinds, the dependencies and the
cycles do not. -/
theorem lineage_of_reordered (dialect : Sql.Dialect) (naming : TableNaming)
    (h : inputs.Perm others) :
    (inputs.Pairwise (fun a b => (inputPath a).same (inputPath b) = false) →
        buildLineage dialect naming inputs = buildLineage dialect naming others) ∧
      SameUpToNames (buildLineage dialect naming inputs).graph
        (buildLineage dialect naming others).graph ∧
      (buildLineage dialect naming inputs).summary.cycles =
        (buildLineage dialect naming others).summary.cycles := by
  have hsame := sameUpToNames_buildLineage dialect naming h
  exact ⟨buildLineage_congr dialect naming h, hsame, hsame.cycles⟩

/-- Two files that read each other and a third that could not be read, handed in the other way
round. -/
theorem lineage_of_swapped_files :
    let orders : Except SourceError SqlSource :=
      .ok ⟨⟨"sales/orders.sql"⟩, "SELECT * FROM report JOIN raw.orders"⟩
    let report : Except SourceError SqlSource := .ok ⟨⟨"report.sql"⟩, "SELECT * FROM orders"⟩
    let unread : Except SourceError SqlSource := .error (.io ⟨"lost.sql"⟩ "gone")
    let build := buildLineage .generic StemNaming.plain.tableFor
    [orders, report, unread].Perm [unread, report, orders] ∧
      [orders, report, unread].Pairwise (fun a b => (inputPath a).same (inputPath b) = false) ∧
      build [orders, report, unread] = build [unread, report, orders] ∧
      SameUpToNames (build [orders, report, unread]).graph
        (build [unread, report, orders]).graph := by
  intro orders report unread build
  have hperm : [orders, report, unread].Perm [unread, report, orders] :=
    List.reverse_perm [unread, report, orders]
  have hdiffer : [orders, report, unread].Pairwise
      fun a b => (inputPath a).same (inputPath b) = false := by decide +kernel
  have hsame := lineage_of_reordered .generic StemNaming.plain.tableFor hperm
  exact ⟨hperm, hdiffer, hsame.1 hdiffer, hsame.2.1⟩

end TableLineage
