import TableLineage.Proofs.Lineage.Accounting

/-!
# Files do not interfere

Two builds are compared whose inputs differ in nothing but the texts of sources.  Order, names, ids
and the catalog do not depend on texts, so the two builds process the same inputs in the same order
(`placedFiles_retexted`), with the same catalog (`catalogOf_retexted`).  What a file contributes
depends on its own text and the catalog, and the dependencies on a table are made by the files that
produce it (`mem_dependencies_iff_producer`).  So a file with the same text contributes the same,
and a table reads the same if all files that produce it have the same texts (`lineage_of_retexted`).
-/

namespace TableLineage

/-! ## Other texts -/

/-- The source with another text. -/
def SqlSource.retexted (text : String → String) (source : SqlSource) : SqlSource :=
  { source with sql := text source.sql }

/-- The file with another text. -/
def NamedSource.retexted (text : String → String) (file : NamedSource) : NamedSource :=
  { file with source := file.source.retexted text }

/-- The inputs in which the sources have other texts; the text of the input at a place is changed by
the function for that place. -/
def retexted (text : Nat → String → String) (inputs : List (Except SourceError SqlSource)) :
    List (Except SourceError SqlSource) :=
  inputs.mapIdx fun place input => input.map (SqlSource.retexted (text place))

/-! ## Files and their places -/

/-- The sources with their places among the inputs. -/
def placedSources (inputs : List (Except SourceError SqlSource)) : List (SqlSource × Nat) :=
  inputs.zipIdx.filterMap fun (input, place) => input.toOption.map fun source => (source, place)

/-- The files with tables and their places among the inputs, in the order of their paths. -/
def placedFiles (naming : TableNaming) (inputs : List (Except SourceError SqlSource)) :
    List (NamedSource × Nat) :=
  (Path.sortBy (·.1.path) (placedSources inputs)).filterMap fun (source, place) =>
    (NamedSource.ofSource? naming source).map fun file => (file, place)

section Places

variable (naming : TableNaming) (inputs : List (Except SourceError SqlSource))
  (text : Nat → String → String)

theorem map_fst_placedSources :
    (placedSources inputs).map Prod.fst = inputs.filterMap fun input => input.toOption := by
  conv_rhs => rw [← List.zipIdx_map_fst 0 inputs]
  rw [placedSources, List.map_filterMap, List.filterMap_map]
  congr 1
  funext pair
  obtain ⟨input, place⟩ := pair
  cases input <;> rfl

/-- The files are those that the build processes, in the same order. -/
theorem map_fst_placedFiles : (placedFiles naming inputs).map Prod.fst =
    namedSources naming inputs := by
  have hsorted : sortedSources inputs =
      (Path.sortBy (·.1.path) (placedSources inputs)).map Prod.fst := by
    rw [sortedSources, ← map_fst_placedSources, ← Path.map_sortBy]
  rw [namedSources, hsorted, placedFiles, List.map_filterMap, List.filterMap_map]
  congr 1
  funext pair
  obtain ⟨source, place⟩ := pair
  cases hnamed : NamedSource.ofSource? naming source <;> simp [hnamed]

theorem getElem?_of_mem_placedFiles {file : NamedSource} {place : Nat}
    (h : (file, place) ∈ placedFiles naming inputs) : inputs[place]? = some (.ok file.source) := by
  obtain ⟨⟨source, other⟩, hsource, hfile⟩ := List.mem_filterMap.mp h
  obtain ⟨named, hnamed, hpair⟩ := Option.map_eq_some_iff.mp hfile
  obtain ⟨rfl, rfl⟩ := Prod.mk.inj hpair
  rw [Path.sortBy_perm _ _ |>.mem_iff] at hsource
  obtain ⟨⟨input, third⟩, hinput, hsource⟩ := List.mem_filterMap.mp hsource
  obtain ⟨found, hfound, hpair⟩ := Option.map_eq_some_iff.mp hsource
  obtain ⟨rfl, rfl⟩ := Prod.mk.inj hpair
  rw [source_of_ofSource? hnamed, List.mem_zipIdx_iff_getElem?.mp hinput]
  cases input with
  | error error => cases hfound
  | ok source => cases hfound; rfl

theorem zipIdx_retexted :
    (retexted text inputs).zipIdx = inputs.zipIdx.map fun (input, place) =>
      (input.map (SqlSource.retexted (text place)), place) := by
  apply List.ext_getElem?
  intro n
  simp [retexted, List.getElem?_zipIdx, Function.comp_def]

theorem placedSources_retexted :
    placedSources (retexted text inputs) = (placedSources inputs).map fun (source, place) =>
      (source.retexted (text place), place) := by
  rw [placedSources, zipIdx_retexted, List.filterMap_map, placedSources, List.map_filterMap]
  congr 1
  funext pair
  obtain ⟨input, place⟩ := pair
  cases input <;> rfl

theorem ofSource?_retexted (text : String → String) (source : SqlSource) :
    NamedSource.ofSource? naming (source.retexted text) =
      (NamedSource.ofSource? naming source).map (NamedSource.retexted text) := by
  rw [NamedSource.ofSource?, NamedSource.ofSource?, Option.map_bind]
  congr 1
  funext name
  rw [Function.comp_apply, Option.map_map]
  rfl

/-- The same inputs are processed in the same order. -/
theorem placedFiles_retexted :
    placedFiles naming (retexted text inputs) = (placedFiles naming inputs).map fun (file, place) =>
      (file.retexted (text place), place) := by
  rw [placedFiles, placedSources_retexted, ← Path.map_sortBy, List.filterMap_map, placedFiles,
    List.map_filterMap]
  congr 1
  funext pair
  obtain ⟨source, place⟩ := pair
  simp [ofSource?_retexted, Function.comp_def]

theorem namedSources_retexted :
    namedSources naming (retexted text inputs) =
      (placedFiles naming inputs).map fun (file, place) =>
      file.retexted (text place) := by
  rw [← map_fst_placedFiles, placedFiles_retexted, List.map_map]
  rfl

/-- Ids and stems do not depend on texts, and the catalog has nothing else. -/
theorem catalogOf_retexted :
    catalogOf (namedSources naming (retexted text inputs)) =
      catalogOf (namedSources naming inputs) := by
  rw [namedSources_retexted, ← map_fst_placedFiles, catalogOf_eq, catalogOf_eq, List.map_map,
    List.map_map]
  rfl

end Places

/-! ## What a file contributes -/

section Contributions

variable {naming : TableNaming} {inputs : List (Except SourceError SqlSource)}
  {text : Nat → String → String}

theorem retexted_eq_self {file : NamedSource} {text : String → String}
    (h : text file.source.sql = file.source.sql) : file.retexted text = file := by
  rw [NamedSource.retexted, SqlSource.retexted, h]

theorem getElem?_namedSources {n place : Nat} {file : NamedSource}
    (h : (placedFiles naming inputs)[n]? = some (file, place)) :
    (namedSources naming inputs)[n]? = some file := by
  rw [← map_fst_placedFiles, List.getElem?_map, h]
  rfl

/-- A file with the same text is the same file at the same position. -/
theorem getElem?_namedSources_retexted {n place : Nat} {file : NamedSource}
    (h : (placedFiles naming inputs)[n]? = some (file, place))
    (hsame : text place file.source.sql = file.source.sql) :
    (namedSources naming (retexted text inputs))[n]? = some file := by
  rw [namedSources_retexted, List.getElem?_map, h]
  exact congrArg some (retexted_eq_self hsame)

/-- The warnings of a build, file by file. -/
def warningsByFile (dialect : Sql.Dialect) (naming : TableNaming)
    (inputs : List (Except SourceError SqlSource)) : List (List FileWarning) :=
  (namedSources naming inputs).map fun file => sourceWarnings dialect file.source

theorem flatten_warningsByFile (dialect : Sql.Dialect) (naming : TableNaming)
    (inputs : List (Except SourceError SqlSource)) :
    (warningsByFile dialect naming inputs).flatten =
      (buildLineage dialect naming inputs).summary.warnings := by
  rw [warnings_buildLineage, warningsByFile, List.flatMap_def]

/-- A file with the same text contributes the same, as the catalog is the same. -/
theorem getElem?_files_retexted (dialect : Sql.Dialect) {n place : Nat} {file : NamedSource}
    (h : (placedFiles naming inputs)[n]? = some (file, place))
    (hsame : text place file.source.sql = file.source.sql) :
    (buildLineage dialect naming (retexted text inputs)).files[n]? =
      (buildLineage dialect naming inputs).files[n]? := by
  -- the same file stands at the place in both runs, and it is read against the same catalog
  calc (buildLineage dialect naming (retexted text inputs)).files[n]?
      = some (.ofScan (catalogOf (namedSources naming (retexted text inputs))) file
          (Sql.scan dialect file.source.sql)) := by
        rw [files_buildLineage, List.getElem?_map, getElem?_namedSources_retexted h hsame]
        rfl
    _ = some (.ofScan (catalogOf (namedSources naming inputs)) file
          (Sql.scan dialect file.source.sql)) := by rw [catalogOf_retexted]
    _ = (buildLineage dialect naming inputs).files[n]? := by
        rw [files_buildLineage, List.getElem?_map, getElem?_namedSources h]
        rfl

end Contributions

/-! ## The dependencies on a table -/

section Dependencies

variable {dialect : Sql.Dialect} {naming : TableNaming}
  {inputs : List (Except SourceError SqlSource)}
  {text : Nat → String → String} {source table : TableId}

/-- All files that produce a table have the same texts. -/
def KeepsTexts (naming : TableNaming) (inputs : List (Except SourceError SqlSource))
    (text : Nat → String → String) (table : TableId) : Prop :=
  ∀ file place, (file, place) ∈ placedFiles naming inputs → file.id = table →
    text place file.source.sql = file.source.sql

/-- A dependency on a table is a read of a file that produces it. -/
theorem mem_dependencies_iff_producer :
    ⟨source, table⟩ ∈ (buildLineage dialect naming inputs).graph.dependencies ↔
      ∃ file ∈ namedSources naming inputs, file.id = table ∧
        ∃ site ∈ sitesOfFile dialect file,
          site.reads (catalogOf (namedSources naming inputs)) source = true := by
  rw [graph_buildLineage, mem_dependencies_walkedGraph]
  constructor
  · rintro ⟨site, hsite, hreads, htarget⟩
    obtain ⟨hfile, hsite⟩ := mem_referenceSites.mp hsite
    exact ⟨site.file, hfile, htarget.symm, site, hsite, hreads⟩
  · rintro ⟨file, hfile, rfl, site, hsite, hreads⟩
    obtain rfl := (mem_sitesOfScan.mp hsite).1
    exact ⟨site, mem_referenceSites.mpr ⟨hfile, hsite⟩, hreads, rfl⟩

theorem mem_namedSources_retexted {file : NamedSource} :
    file ∈ namedSources naming (retexted text inputs) ↔
      ∃ old place, (old, place) ∈ placedFiles naming inputs ∧ old.retexted (text place) = file := by
  rw [namedSources_retexted, List.mem_map, Prod.exists]

/-- The files that produce a table are the same if all of them have the same texts. -/
theorem mem_producers_retexted (hsame : KeepsTexts naming inputs text table) {file : NamedSource} :
    (file ∈ namedSources naming (retexted text inputs) ∧ file.id = table) ↔
      file ∈ namedSources naming inputs ∧ file.id = table := by
  rw [mem_namedSources_retexted, ← map_fst_placedFiles, List.mem_map, Prod.exists]
  constructor
  · rintro ⟨⟨old, place, hold, rfl⟩, hid⟩
    rw [retexted_eq_self (hsame old place hold hid)]
    exact ⟨⟨old, place, hold, rfl⟩, hid⟩
  · rintro ⟨⟨old, place, hold, rfl⟩, hid⟩
    exact ⟨⟨old, place, hold, retexted_eq_self (hsame old place hold hid)⟩, hid⟩

/-- A table is read into by the same tables if the files that produce it have the same texts. -/
theorem mem_dependencies_retexted (hsame : KeepsTexts naming inputs text table) :
    ⟨source, table⟩ ∈ (buildLineage dialect naming (retexted text inputs)).graph.dependencies ↔
      ⟨source, table⟩ ∈ (buildLineage dialect naming inputs).graph.dependencies := by
  rw [mem_dependencies_iff_producer, mem_dependencies_iff_producer, catalogOf_retexted]
  simp only [← and_assoc, mem_producers_retexted hsame]

theorem directReads_congr {graph other : LineageGraph} {table : TableId}
    (h : ∀ source, ⟨source, table⟩ ∈ graph.dependencies ↔ ⟨source, table⟩ ∈ other.dependencies) :
    graph.directReads table.value = other.directReads table.value := by
  have hreads : ∀ (graph : LineageGraph) source,
      source ∈ (graph.dependencies.filter (·.target.value == table.value)).map (·.source) ↔
        ⟨source, table⟩ ∈ graph.dependencies := by
    intro graph source
    simp only [List.mem_map, List.mem_filter, beq_iff_eq, TableId.value_inj]
    constructor
    · rintro ⟨d, ⟨hd, rfl⟩, rfl⟩
      exact hd
    · intro hd
      exact ⟨_, ⟨hd, rfl⟩, rfl⟩
  refine Order.ascending_congr fun source => ?_
  rw [hreads, hreads, h]

end Dependencies

/-! ## Two builds -/

/-- Two builds have the same of the file at a position. -/
structure IsKept (dialect : Sql.Dialect) (naming : TableNaming)
    (inputs others : List (Except SourceError SqlSource)) (n : Nat) (file : NamedSource) :
    Prop where
  lineage : ∃ lineage, (buildLineage dialect naming inputs).files[n]? = some lineage ∧
    (buildLineage dialect naming others).files[n]? = some lineage ∧
    lineage.path = file.source.path ∧ lineage.table = file.id
  warnings : (warningsByFile dialect naming inputs)[n]? =
      some (sourceWarnings dialect file.source) ∧
    (warningsByFile dialect naming others)[n]? = some (sourceWarnings dialect file.source)
  /-- The table reads the same, unless another file produces it too. -/
  directReads : (∀ m other, m ≠ n → (namedSources naming inputs)[m]? = some other →
      other.id ≠ file.id) →
    (buildLineage dialect naming others).graph.directReads file.id.value =
      (buildLineage dialect naming inputs).graph.directReads file.id.value

/-- The only file that produces a table is found at one place. -/
theorem eq_of_mem_placedFiles {naming : TableNaming} {inputs : List (Except SourceError SqlSource)}
    {n place otherPlace : Nat} {file other : NamedSource}
    (h : (placedFiles naming inputs)[n]? = some (file, place))
    (hsingle : ∀ m other, m ≠ n → (namedSources naming inputs)[m]? = some other →
      other.id ≠ file.id)
    (hother : (other, otherPlace) ∈ placedFiles naming inputs) (hid : other.id = file.id) :
    other = file ∧ otherPlace = place := by
  obtain ⟨m, hm⟩ := List.mem_iff_getElem?.mp hother
  by_cases hposition : m = n
  · rw [hposition, h] at hm
    cases hm
    exact ⟨rfl, rfl⟩
  · exact absurd hid (hsingle m other hposition (getElem?_namedSources hm))

theorem isKept_retexted (dialect : Sql.Dialect) {naming : TableNaming}
    {inputs : List (Except SourceError SqlSource)} {text : Nat → String → String} {n place : Nat}
    {file : NamedSource} (h : (placedFiles naming inputs)[n]? = some (file, place))
    (hsame : text place file.source.sql = file.source.sql) :
    IsKept dialect naming inputs (retexted text inputs) n file where
  lineage := by
    have hbefore : (buildLineage dialect naming inputs).files[n]? = some (.ofScan
        (catalogOf (namedSources naming inputs)) file (Sql.scan dialect file.source.sql)) := by
      rw [files_buildLineage, List.getElem?_map, getElem?_namedSources h]
      rfl
    exact ⟨_, hbefore, (getElem?_files_retexted dialect h hsame).trans hbefore, rfl, rfl⟩
  warnings := by
    constructor
    · rw [warningsByFile, List.getElem?_map, getElem?_namedSources h, Option.map_some]
    · rw [warningsByFile, List.getElem?_map, getElem?_namedSources_retexted h hsame,
        Option.map_some]
  directReads hsingle := directReads_congr fun source => mem_dependencies_retexted
    fun other otherPlace hother hid => by
      -- no other file has the same table, and this one keeps its text
      obtain ⟨rfl, rfl⟩ := eq_of_mem_placedFiles h hsingle hother hid
      exact hsame

/-- Other texts at some places, with the same paths, leave the catalog, the files with the same text
and their warnings as they were, and the reads of every table whose files all have the same
texts. -/
theorem lineage_of_retexted (dialect : Sql.Dialect) (naming : TableNaming)
    (inputs : List (Except SourceError SqlSource)) (text : Nat → String → String) :
    catalogOf (namedSources naming (retexted text inputs)) =
      catalogOf (namedSources naming inputs) ∧
      (placedFiles naming inputs).map Prod.fst = namedSources naming inputs ∧
      (∀ others, (warningsByFile dialect naming others).flatten =
        (buildLineage dialect naming others).summary.warnings) ∧
      (∀ n file place, (placedFiles naming inputs)[n]? = some (file, place) →
        inputs[place]? = some (.ok file.source) ∧
          (text place file.source.sql = file.source.sql →
            IsKept dialect naming inputs (retexted text inputs) n file)) ∧
      ∀ table : TableId, KeepsTexts naming inputs text table →
        (buildLineage dialect naming (retexted text inputs)).graph.directReads table.value =
            (buildLineage dialect naming inputs).graph.directReads table.value ∧
          ∀ source, ⟨source, table⟩ ∈
              (buildLineage dialect naming (retexted text inputs)).graph.dependencies ↔
            ⟨source, table⟩ ∈ (buildLineage dialect naming inputs).graph.dependencies := by
  refine ⟨catalogOf_retexted naming inputs text, map_fst_placedFiles naming inputs,
    flatten_warningsByFile dialect naming, ?_, ?_⟩
  · intro n file place h
    exact ⟨getElem?_of_mem_placedFiles naming inputs (List.mem_of_getElem? h),
      isKept_retexted dialect h⟩
  · intro table hsame
    -- what reads into the table comes from texts that stay
    have hdependencies : ∀ source,
        ⟨source, table⟩ ∈
            (buildLineage dialect naming (retexted text inputs)).graph.dependencies ↔
          ⟨source, table⟩ ∈ (buildLineage dialect naming inputs).graph.dependencies :=
      fun _ => mem_dependencies_retexted hsame
    exact ⟨directReads_congr hdependencies, hdependencies⟩

/-- Where a quote and a group are opened and never closed in a file, a file that reads its table
goes on to read it. -/
theorem lineage_of_retexted_openQuote :
    let read : NamedSource := ⟨⟨⟨"a.sql"⟩, "SELECT * FROM x"⟩, ⟨"a", by decide⟩, ⟨"a", by decide⟩⟩
    let reader : NamedSource :=
      ⟨⟨⟨"b.sql"⟩, "SELECT * FROM a"⟩, ⟨"b", by decide⟩, ⟨"b", by decide⟩⟩
    let naming := StemNaming.plain.tableFor
    let inputs := [Except.ok read.source, Except.ok reader.source]
    let others := retexted (fun place sql => if place = 0 then "SELECT ('" else sql) inputs
    placedFiles naming inputs = [(read, 0), (reader, 1)] ∧
      IsKept .generic naming inputs others 1 reader ∧
      (buildLineage .generic naming others).graph.directReads "b" = [read.id] := by
  intro read reader naming inputs others
  have hplaced : placedFiles naming inputs = [(read, 0), (reader, 1)] := by
    rw [placedFiles, Path.sortBy, List.mergeSort_of_pairwise (by decide +kernel)]
    decide +kernel
  have hreads : (buildLineage .generic naming inputs).graph.directReads "b" = [read.id] := by
    rw [graph_buildLineage, ← map_fst_placedFiles, hplaced]
    decide +kernel
  have hkept := (lineage_of_retexted .generic naming inputs
    fun place sql => if place = 0 then "SELECT ('" else sql).2.2.2
  refine ⟨hplaced, (hkept.1 1 reader 1 (by rw [hplaced]; rfl)).2 rfl, ?_⟩
  -- only the reader has its table, and the reader stands at the second place
  refine (hkept.2 reader.id ?_).1.trans hreads
  intro file place hfile hid
  rw [hplaced, List.mem_pair] at hfile
  rcases hfile with hfile | hfile
  · cases hfile
    exact absurd hid (by decide)
  · cases hfile
    rfl

end TableLineage
