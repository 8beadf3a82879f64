import TableLineage.Command.Run
import TableLineage.Proofs.Graph.Neighbourhood
import TableLineage.Proofs.Lineage.FileNames
import TableLineage.Proofs.Sql.Resolution
import TableLineage.Proofs.Table.RereadKeys

/-!
# Tables that are selected by their printed ids

An id comes into a graph from the name of a file or from a reference, and either way it is a key
(`exists_key_of_mem_ids`).  The table to show is given as a name, which is read like any other: so
the id that was printed selects its own table just where keys are read as themselves
(`printed_ids_select`), and every table can be selected by its id between marks that the id does not
hold.
-/

namespace TableLineage

open Table

/-! ## The ids of a build -/

section Ids

variable {dialect : Sql.Dialect} {naming : TableNaming}
  {inputs : List (Except SourceError SqlSource)}

theorem exists_key_of_canonical? {name : String} {id : TableId}
    (h : TableId.canonical? name = some id) :
    ∃ parts, id.value = canonicalName parts :=
  ⟨splitName name, TableId.value_of_ofString? h⟩

/-- The id of a file is a key. -/
theorem exists_key_of_mem_namedSources {file : NamedSource}
    (h : file ∈ namedSources naming inputs) :
    ∃ parts, file.id.value = canonicalName parts := by
  obtain ⟨source, -, hfile⟩ := List.mem_filterMap.mp h
  obtain ⟨name, -, hid⟩ := Option.bind_eq_some_iff.mp hfile
  obtain ⟨id, hname, rfl⟩ := Option.map_eq_some_iff.mp hid
  exact exists_key_of_canonical? hname

/-- What a reference means is a key: that of a file, or its own. -/
theorem exists_key_of_resolve {ctes : Sql.CteScope} {reference : Sql.TableReference}
    {value : String}
    (h : (Sql.resolve (catalogOf (namedSources naming inputs)) ctes reference).id? = some value) :
    ∃ parts, value = canonicalName parts := by
  rw [catalogOf_eq] at h
  cases hmeant : Sql.resolve (.ofRegistrations _) ctes reference with
  | cte =>
      rw [hmeant] at h
      cases h
  | model id =>
      rw [hmeant] at h
      obtain rfl := Option.some.inj h
      -- a model that a reference means was registered, so its id is the key of a file
      obtain ⟨r, hr, hid⟩ := Sql.isRegistered_of_resolve hmeant
      obtain ⟨file, hfile, rfl⟩ := List.mem_map.mp hr
      obtain ⟨parts, hkey⟩ := exists_key_of_mem_namedSources hfile
      refine ⟨parts, ?_⟩
      rw [← hid, NamedSource.registration, hkey, lowercase_canonicalName]
  -- an external id is the name of the reference itself
  | external id =>
      rw [hmeant] at h
      obtain rfl := Option.some.inj h
      exact ⟨_, (Sql.external_of_resolve hmeant).1⟩

/-- The ids of a built graph are keys. -/
theorem exists_key_of_mem_ids {id : TableId}
    (h : id ∈ (buildLineage dialect naming inputs).graph.ids) :
    ∃ parts, id.value = canonicalName parts := by
  rw [graph_buildLineage, mem_ids_walkedGraph] at h
  rcases h with ⟨file, hfile, rfl⟩ | ⟨site, -, hreads⟩
  · exact exists_key_of_mem_namedSources hfile
  · exact exists_key_of_resolve (ReferenceSite.reads_iff.mp hreads).1

theorem graph_of_one_file {source : SqlSource} {file : NamedSource}
    (h : NamedSource.ofSource? naming source = some file) :
    (buildLineage dialect naming [.ok source]).graph = walkedGraph dialect [file] := by
  have hsorted : sortedSources [.ok source] = [source] :=
    List.mergeSort_of_pairwise (List.pairwise_singleton _ source)
  rw [graph_buildLineage, namedSources, hsorted, List.filterMap_cons, h]
  rfl

end Ids

/-! ## Selection -/

namespace Command

variable (m : Type → Type) [Monad m]

/-- A name selects a table of a graph: on either side, the part of the graph around it is shown. -/
def Selects (graph : LineageGraph) (name : String) (id : TableId) : Prop :=
  ∀ direction, ∃ part, graph.neighbourhood id.value direction = .ok part ∧ id ∈ part.ids ∧
    selectGraph graph (some name) direction = (pure part : Session m LineageGraph)

variable {m}

theorem selects_of_canonical? {graph : LineageGraph} {name : String} {id : TableId}
    (hid : id ∈ graph.ids) (hname : TableId.canonical? name = some id) :
    Selects m graph name id := by
  have hfind : graph.find id.value = .ok id := LineageGraph.find_eq_ok_iff.mpr ⟨hid, rfl⟩
  intro direction
  have hpart := LineageGraph.neighbourhood_eq_ok hfind direction
  refine ⟨_, hpart, ?_, ?_⟩
  · exact (LineageGraph.find_eq_ok_iff.mp (LineageGraph.find_partAround hfind direction)).1
  · rw [selectGraph, hname]
    simp only [hpart]

end Command

/-- **What a printed id selects.**  The id of a name is read off its own text just if the text reads
as itself, and the same holds for every id of a built graph.  There an id that reads as itself
selects its own table, and between marks that it does not hold every id does. -/
theorem printed_ids_select (m : Type → Type) [Monad m] :
    (∀ name id, TableId.canonical? name = some id →
      (TableId.canonical? id.value = some id ↔ ReadsAsItself id.value)) ∧
    ∀ dialect naming inputs, ∀ id ∈ (buildLineage dialect naming inputs).graph.ids,
      (TableId.canonical? id.value = some id ↔ ReadsAsItself id.value) ∧
      (ReadsAsItself id.value →
        Command.Selects m (buildLineage dialect naming inputs).graph id.value id) ∧
      ∀ mark : Sql.QuoteMark, mark.closing ∉ id.value.toList →
        Command.Selects m (buildLineage dialect naming inputs).graph
          (enclosed mark id.value) id := by
  constructor
  · intro name id hname
    obtain ⟨parts, hkey⟩ := exists_key_of_canonical? hname
    exact canonical?_value_iff hkey
  · intro dialect naming inputs id hid
    obtain ⟨parts, hkey⟩ := exists_key_of_mem_ids hid
    have hself := canonical?_value_iff hkey
    refine ⟨hself, fun hreads => ?_, fun mark hmark => ?_⟩
    · exact Command.selects_of_canonical? hid (hself.mpr hreads)
    · exact Command.selects_of_canonical? hid (canonical?_enclosed hkey mark hmark)

/-- A file that reads a table with a blank in its name: the printed id of the table is read as
another one, which the graph does not hold. -/
theorem spaced_id_is_not_selected :
    let source : SqlSource := ⟨⟨"m.sql"⟩, "SELECT * FROM \"a b\""⟩
    let graph := (buildLineage .generic StemNaming.plain.tableFor [.ok source]).graph
    let id : TableId := ⟨"a b", by decide⟩
    TableId.canonical? "\"a b\"" = some id ∧ TableId.canonical? id.value = some ⟨"ab", by decide⟩ ∧
      id ∈ graph.ids ∧ ¬ ReadsAsItself id.value ∧
      Command.selectGraph (m := Id) graph (some id.value) .both =
        Command.Session.fail "failed to select lineage"
          ["[E004] Table not found in lineage graph: ab"] ∧
      ¬ Command.Selects Id graph id.value id := by
  intro source graph id
  have hgraph : graph = walkedGraph .generic [⟨source, ⟨"m", by decide⟩, ⟨"m", by decide⟩⟩] :=
    graph_of_one_file (by decide +kernel)
  have hread : TableId.canonical? id.value = some ⟨"ab", by decide⟩ := by decide +kernel
  have hids : graph.ids = [⟨"m", by decide⟩, id] := by
    rw [hgraph]
    decide +kernel
  -- the id is read as one without the blank, and no table has that
  have hother : graph.neighbourhood "ab" .both = .error ⟨"ab"⟩ := by
    have hnone : graph.node? "ab" = none := by
      rw [hgraph]
      decide +kernel
    rw [LineageGraph.neighbourhood, LineageGraph.find_eq_error hnone]
    rfl
  have hfail : Command.selectGraph (m := Id) graph (some id.value) .both =
      Command.Session.fail "failed to select lineage"
        ["[E004] Table not found in lineage graph: ab"] := by
    rw [Command.selectGraph, hread]
    simp only [hother]
    rfl
  refine ⟨by decide +kernel, hread, by simp [hids], by decide +kernel, hfail, fun hselects => ?_⟩
  obtain ⟨part, -, -, hpart⟩ := hselects .both
  rw [hfail] at hpart
  cases congrArg Prod.fst (congrFun hpart ⟨"", ""⟩)

/-- The same table is selected by its id between quotes, and a table with a plain id by its id as it
is. -/
theorem printed_ids_select_spaced :
    let source : SqlSource := ⟨⟨"m.sql"⟩, "SELECT * FROM \"a b\" JOIN x.\"Y\""⟩
    let graph := (buildLineage .generic StemNaming.plain.tableFor [.ok source]).graph
    TableId.canonical? "X.[y]" = some ⟨"x.y", by decide⟩ ∧
      TableId.canonical? "x.y" = some ⟨"x.y", by decide⟩ ∧
      Command.Selects Id graph "x.y" ⟨"x.y", by decide⟩ ∧
      Command.Selects Id graph "\"a b\"" ⟨"a b", by decide⟩ := by
  intro source graph
  have hgraph : graph = walkedGraph .generic [⟨source, ⟨"m", by decide⟩, ⟨"m", by decide⟩⟩] :=
    graph_of_one_file (by decide +kernel)
  have hids : graph.ids = [⟨"m", by decide⟩, ⟨"a b", by decide⟩, ⟨"x.y", by decide⟩] := by
    rw [hgraph]
    decide +kernel
  have hselect := printed_ids_select Id
  have hname : TableId.canonical? "X.[y]" = some ⟨"x.y", by decide⟩ := by decide +kernel
  have hplain : ReadsAsItself "x.y" := by decide +kernel
  have hxy := hselect.2 .generic _ [.ok source] ⟨"x.y", by decide⟩ (by rw [hids]; simp)
  have hab := hselect.2 .generic _ [.ok source] ⟨"a b", by decide⟩ (by rw [hids]; simp)
  exact ⟨hname, (hselect.1 _ _ hname).mpr hplain, hxy.2.1 hplain, hab.2.2 .double (by decide)⟩

end TableLineage
