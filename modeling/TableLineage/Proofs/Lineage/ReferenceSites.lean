import Mathlib.Data.List.Induction
import TableLineage.Lineage.Build
import TableLineage.Proofs.Graph.NodeMap

/-!
# The graph after a prefix of the references

A build walks through files, statements and references and changes the graph at every reference that
reads a table.  Flattened, that is a walk through a list of reference sites, and the graph after a
prefix of the sites is known from the prefix:

* a table of a file is a model, named by the first file that produces it;
* any other table that a site of the prefix reads is a source, named where it is first read;
* the dependencies are the reads of the prefix.

`node?_modelGraph` says so before the first site.  `node?_addSites` and
`mem_dependencies_addSites` carry it over all prefixes, by induction on the prefix from its end,
since the last site is the one that the graph was changed by last.
-/

namespace TableLineage

/-! ## Sites -/

/-- A reference and where it stands. -/
structure ReferenceSite where
  file : NamedSource
  statement : Sql.StatementScan
  reference : Sql.TableReference

/-- The references of a file with its scan, in order. -/
def sitesOfScan (file : NamedSource) (scan : Sql.TextScan) : List ReferenceSite :=
  scan.statements.flatMap fun statement =>
    statement.references.map fun reference => ⟨file, statement, reference⟩

/-- The references of a file, in order. -/
def sitesOfFile (dialect : Sql.Dialect) (file : NamedSource) : List ReferenceSite :=
  sitesOfScan file (Sql.scan dialect file.source.sql)

/-- The references of all files, in order. -/
def referenceSites (dialect : Sql.Dialect) (files : List NamedSource) : List ReferenceSite :=
  files.flatMap (sitesOfFile dialect)

namespace ReferenceSite

/-- Whether the file reads a table at this site: the reference means it, by the common table
expressions of its own statement and the catalog, and the file does not produce it. -/
def reads (catalog : Sql.ModelCatalog) (table : TableId) (site : ReferenceSite) : Bool :=
  decide ((Sql.resolve catalog site.statement.ctes site.reference).id? = some table.value ∧
    table ≠ site.file.id)

/-- The read of a table that is made at this site. -/
def read? (catalog : Sql.ModelCatalog) (site : ReferenceSite) : Option TableRead :=
  readOf? catalog site.file.id site.statement.ctes site.reference

variable {catalog : Sql.ModelCatalog} {site : ReferenceSite}

theorem reads_iff {table : TableId} :
    site.reads catalog table = true ↔
      (Sql.resolve catalog site.statement.ctes site.reference).id? = some table.value ∧
        table ≠ site.file.id := by
  simp [reads]

theorem read?_eq_some_iff {read : TableRead} :
    site.read? catalog = some read ↔
      site.reads catalog read.id = true ∧ read.name = site.reference.display := by
  rw [reads_iff]
  unfold read? readOf?
  cases hmeant : (Sql.resolve catalog site.statement.ctes site.reference).id? with
  | none => simp
  | some value =>
      simp only [Option.some.injEq]
      -- a file does not read its own table, and an empty name means none
      by_cases hself : value = site.file.id.value
      · rw [if_pos hself]
        refine iff_of_false (by simp) fun h => h.1.2 (TableId.ext_value ?_)
        rw [← h.1.1, hself]
      · rw [if_neg hself]
        by_cases hempty : value = ""
        · simp only [TableId.ofString?, hempty, dif_pos, Option.map_none]
          exact iff_of_false (by simp) fun h => read.id.nonempty h.1.1.symm
        · simp only [TableId.ofString?, dif_neg hempty, Option.map_some, Option.some.injEq]
          constructor
          · rintro rfl
            exact ⟨⟨rfl, fun h => hself (congrArg TableId.value h)⟩, rfl⟩
          · rintro ⟨⟨hid, -⟩, hname⟩
            cases read
            simp only [TableRead.mk.injEq]
            exact ⟨TableId.ext_value hid, hname.symm⟩

/-- A site reads at most one table. -/
theorem id_eq_of_reads {table : TableId} {read : TableRead} (hread : site.read? catalog = some read)
    (h : site.reads catalog table = true) : table = read.id := by
  have hmeant := (reads_iff.mp (read?_eq_some_iff.mp hread).1).1
  rw [(reads_iff.mp h).1] at hmeant
  exact TableId.ext_value (Option.some.inj hmeant)

theorem reads_eq_of_read? {table : TableId} {read : TableRead}
    (hread : site.read? catalog = some read) :
    site.reads catalog table = decide (table = read.id) := by
  rw [Bool.eq_iff_iff, decide_eq_true_iff]
  exact ⟨id_eq_of_reads hread, fun h => h ▸ (read?_eq_some_iff.mp hread).1⟩

/-- A site without a read reads no table. -/
theorem reads_eq_false {table : TableId} (hread : site.read? catalog = none) :
    site.reads catalog table = false := by
  by_contra h
  rw [Bool.not_eq_false] at h
  have hsome : site.read? catalog = some ⟨table, site.reference.display⟩ :=
    read?_eq_some_iff.mpr ⟨h, rfl⟩
  rw [hread] at hsome
  cases hsome

end ReferenceSite

theorem mem_sitesOfScan {file : NamedSource} {scan : Sql.TextScan} {site : ReferenceSite} :
    site ∈ sitesOfScan file scan ↔
      site.file = file ∧ site.statement ∈ scan.statements ∧
        site.reference ∈ site.statement.references := by
  cases site
  simp only [sitesOfScan, List.mem_flatMap, List.mem_map, ReferenceSite.mk.injEq]
  constructor
  · rintro ⟨statement, hstatement, reference, hreference, rfl, rfl, rfl⟩
    exact ⟨rfl, hstatement, hreference⟩
  · rintro ⟨rfl, hstatement, hreference⟩
    exact ⟨_, hstatement, _, hreference, rfl, rfl, rfl⟩

theorem mem_referenceSites {dialect : Sql.Dialect} {files : List NamedSource}
    {site : ReferenceSite} :
    site ∈ referenceSites dialect files ↔
      site.file ∈ files ∧ site ∈ sitesOfFile dialect site.file := by
  simp only [referenceSites, List.mem_flatMap]
  constructor
  · rintro ⟨file, hfile, hsite⟩
    obtain rfl := (mem_sitesOfScan.mp hsite).1
    exact ⟨hfile, hsite⟩
  · rintro ⟨hfile, hsite⟩
    exact ⟨site.file, hfile, hsite⟩

/-! ## The walk through the sites -/

/-- The graph after a site. -/
def addSite (catalog : Sql.ModelCatalog) (graph : LineageGraph) (site : ReferenceSite) :
    LineageGraph :=
  match site.read? catalog with
  | none => graph
  | some read => addRead site.file.id graph read

theorem fileReads_eq (catalog : Sql.ModelCatalog) (file : NamedSource) (scan : Sql.TextScan) :
    fileReads catalog file.id scan =
      (sitesOfScan file scan).filterMap (ReferenceSite.read? catalog) := by
  unfold fileReads sitesOfScan
  induction scan.statements with
  | nil => rfl
  | cons statement rest ih =>
      rw [List.flatMap_cons, List.flatMap_cons, List.filterMap_append, ih, List.filterMap_map]
      rfl

theorem addReads_eq (catalog : Sql.ModelCatalog) (graph : LineageGraph) (file : NamedSource)
    (scan : Sql.TextScan) :
    addReads catalog graph (file, scan) =
      (sitesOfScan file scan).foldl (addSite catalog) graph := by
  have hfile : ∀ site ∈ sitesOfScan file scan, site.file = file :=
    fun site hsite => (mem_sitesOfScan.mp hsite).1
  unfold addReads
  rw [fileReads_eq]
  -- from here on only the file of the sites matters
  generalize sitesOfScan file scan = sites at hfile
  induction sites generalizing graph with
  | nil => rfl
  | cons site rest ih =>
      have hhead : site.file = file := hfile site List.mem_cons_self
      have hrest := fun next => ih next fun other hother =>
        hfile other (List.mem_cons_of_mem _ hother)
      cases hread : site.read? catalog with
      | none =>
          rw [List.filterMap_cons_none hread, hrest]
          simp [addSite, hread]
      | some read =>
          rw [List.filterMap_cons_some hread, List.foldl_cons, hrest]
          simp [addSite, hread, hhead]

/-- The graph of a build, as one walk through all sites. -/
theorem readGraph_eq (dialect : Sql.Dialect) (files : List NamedSource) :
    readGraph files (scanFiles dialect files) =
      (referenceSites dialect files).foldl (addSite (catalogOf files)) (modelGraph files) := by
  unfold readGraph scanFiles referenceSites
  rw [List.foldl_map, List.foldl_flatMap]
  congr 1
  funext graph file
  exact addReads_eq _ graph file _

/-! ## Nodes after a prefix -/

theorem modelGraph_concat (files : List NamedSource) (file : NamedSource) :
    modelGraph (files ++ [file]) = (modelGraph files).addModel file.id file.name.value := by
  simp [modelGraph]

/-- Before any reference is walked through, the nodes are the tables of the files. -/
theorem node?_modelGraph (files : List NamedSource) (key : String) :
    (modelGraph files).node? key =
      (files.find? (·.id.value == key)).map fun file => ⟨file.id, file.name.value, .model⟩ := by
  induction files using List.reverseRecOn with
  | nil => rfl
  | append_singleton files file ih =>
      rw [modelGraph_concat, LineageGraph.addModel, LineageGraph.node?_addTable, ih,
        List.find?_append]
      by_cases hkey : key = file.id.value
      · subst hkey
        cases hfound : files.find? (·.id.value == file.id.value) with
        | none => simp [TableNode.afterAdding, file.name.nonempty]
        | some earlier => simp [TableNode.afterAdding]
      · have hother : (file.id.value == key) = false := by simpa using Ne.symm hkey
        simp [hkey, hother]

theorem dependencies_modelGraph (files : List NamedSource) :
    (modelGraph files).dependencies = [] := by
  induction files using List.reverseRecOn with
  | nil => rfl
  | append_singleton files file ih => rw [modelGraph_concat]; exact ih

/-- The source that a site adds for the table that is read there. -/
def sourceRead (table : TableId) (site : ReferenceSite) : TableNode :=
  ⟨table, if site.reference.display = "" then table.value else site.reference.display, .source⟩

theorem node?_addSite (catalog : Sql.ModelCatalog) (graph : LineageGraph) (site : ReferenceSite)
    (table : TableId) :
    (addSite catalog graph site).node? table.value =
      (graph.node? table.value).or
        (if site.reads catalog table then some (sourceRead table site) else none) := by
  cases hread : site.read? catalog with
  | none => simp [addSite, hread, ReferenceSite.reads_eq_false hread]
  | some read =>
      have hname := (ReferenceSite.read?_eq_some_iff.mp hread).2
      simp only [addSite, hread, addRead, LineageGraph.addSource,
        LineageGraph.node?_addDependency, LineageGraph.node?_addTable,
        ReferenceSite.reads_eq_of_read? hread, TableId.value_inj, decide_eq_true_eq]
      by_cases htable : table = read.id
      · subst htable
        cases hold : graph.node? read.id.value <;>
          simp [TableNode.afterAdding, sourceRead, hname]
      · simp [htable]

/-- After a prefix of the sites the nodes are those from before it, and a source for every other
table that the prefix reads. -/
theorem node?_addSites (catalog : Sql.ModelCatalog) (graph : LineageGraph)
    (sites : List ReferenceSite) (table : TableId) :
    (sites.foldl (addSite catalog) graph).node? table.value =
      (graph.node? table.value).or
        ((sites.find? (·.reads catalog table)).map (sourceRead table)) := by
  induction sites using List.reverseRecOn with
  | nil => simp
  | append_singleton sites site ih =>
      rw [List.foldl_concat, node?_addSite, ih, List.find?_append, Option.or_assoc]
      congr 1
      -- the last site only counts if no site before it reads the table
      cases hfound : sites.find? (·.reads catalog table) with
      | some earlier => simp
      | none => by_cases hsite : site.reads catalog table <;> simp [hsite]

/-! ## Dependencies after a prefix -/

theorem ids_subset_addSite (catalog : Sql.ModelCatalog) (graph : LineageGraph)
    (site : ReferenceSite) {id : TableId} (h : id ∈ graph.ids) :
    id ∈ (addSite catalog graph site).ids := by
  rw [LineageGraph.mem_ids_iff] at h ⊢
  rw [node?_addSite, Option.isSome_or, h, Bool.true_or]

theorem mem_dependencies_addSite (catalog : Sql.ModelCatalog) (graph : LineageGraph)
    (site : ReferenceSite) (hfile : site.file.id ∈ graph.ids) (d : Dependency) :
    d ∈ (addSite catalog graph site).dependencies ↔
      d ∈ graph.dependencies ∨
        (site.reads catalog d.source = true ∧ d.target = site.file.id) := by
  cases hread : site.read? catalog with
  | none => simp [addSite, hread, ReferenceSite.reads_eq_false hread]
  | some read =>
      have hread' := (ReferenceSite.read?_eq_some_iff.mp hread).1
      have hne : read.id ≠ site.file.id := (ReferenceSite.reads_iff.mp hread').2
      -- the source is added first, so that both ends of the dependency are in the graph
      have hsource : read.id ∈ (graph.addSource read.id read.name).ids := by
        rw [LineageGraph.mem_ids_iff, LineageGraph.addSource, LineageGraph.node?_addTable]
        simp
      have htarget : site.file.id ∈ (graph.addSource read.id read.name).ids := by
        rw [LineageGraph.mem_ids_iff] at hfile ⊢
        rw [LineageGraph.addSource, LineageGraph.node?_addTable]
        split
        · rfl
        · exact hfile
      simp only [addSite, hread, addRead]
      rw [LineageGraph.mem_dependencies_addDependency hne hsource htarget,
        ReferenceSite.reads_eq_of_read? hread, decide_eq_true_iff]
      refine or_congr Iff.rfl ⟨fun h => by simp [h], fun h => ?_⟩
      cases d
      simp_all

/-- After a prefix of the sites of files in the graph the dependencies are those from before it and
the reads of the prefix. -/
theorem mem_dependencies_addSites (catalog : Sql.ModelCatalog) (graph : LineageGraph)
    (sites : List ReferenceSite) (hfiles : ∀ site ∈ sites, site.file.id ∈ graph.ids)
    (d : Dependency) :
    d ∈ (sites.foldl (addSite catalog) graph).dependencies ↔
      d ∈ graph.dependencies ∨
        ∃ site ∈ sites, site.reads catalog d.source = true ∧ d.target = site.file.id := by
  induction sites generalizing graph with
  | nil => simp
  | cons site rest ih =>
      have hhead : site.file.id ∈ graph.ids := hfiles site List.mem_cons_self
      have hrest : ∀ other ∈ rest, other.file.id ∈ (addSite catalog graph site).ids :=
        fun other hother =>
          ids_subset_addSite catalog graph site (hfiles other (List.mem_cons_of_mem _ hother))
      rw [List.foldl_cons, ih _ hrest, mem_dependencies_addSite catalog graph site hhead d,
        List.exists_mem_cons_iff, or_assoc]

end TableLineage
