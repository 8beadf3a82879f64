import TableLineage.Diagram.Markdown
import TableLineage.Proofs.Diagram.WrittenLines
import TableLineage.Proofs.Graph.Listings

/-!
# The text of a written diagram

A diagram is written as a flowchart in a fenced block of Markdown.  Three texts get in the way if
they stand in an id: a line feed ends the line, the escape `#quot;` is taken for a quote, and three
backticks close the fence.  An id without them is readable.

If all ids of a diagram are readable, its flowchart holds no fence, so that the block is the
flowchart (`block?_fenced`), and the lines that are read are those that were written
(`readLines_toMermaid`).  The fence only counts for the block: without one around the flowchart, the
lines are read back if no id holds a line feed or the escape (`readLines_written`).  Of a diagram it
is only used that its ids are not empty and that it has the ends of its edges among its nodes; the
diagrams of graphs are proper in this sense (`isProper_ofGraph`).
-/

namespace TableLineage

namespace Flowchart

variable {id flowchart markdown : String} {text : List Char} {diagram : Diagram}

/-! ## Fenced blocks -/

/-- Three backticks. -/
abbrev fence : List Char :=
  ['\x60', '\x60', '\x60']

theorem fenced_toList (flowchart : String) :
    (Mermaid.fenced flowchart).toList =
      "```mermaid\n".toList ++ (flowchart.toList ++ '\n' :: "```\n".toList) := by
  simp [Mermaid.fenced]

/-- A flowchart without fences is the text of its block. -/
theorem block?_fenced (h : ¬ fence <:+: flowchart.toList) :
    Mermaid.block? (Mermaid.fenced flowchart) = some (flowchart ++ "\n") := by
  have hopen : ∀ rest, Text.findPattern? "```mermaid".toList ("```mermaid\n".toList ++ rest) =
      some 0 :=
    fun _ => rfl
  have hfeed : ∀ rest, Text.findPattern? ['\n'] ("```mermaid\n".toList ++ rest) = some 10 :=
    fun _ => rfl
  have hclose : Text.findPattern? "```".toList (flowchart.toList ++ '\n' :: "```\n".toList) =
      some (flowchart.toList.length + 1) :=
    Text.findPattern?_append_cons (by decide) h (by decide)
  have hbody : (flowchart.toList ++ '\n' :: "```\n".toList).take (flowchart.toList.length + 1) =
      (flowchart ++ "\n").toList := by
    rw [String.toList_append, ← List.singleton_append, ← List.append_assoc]
    exact List.take_left' (by simp)
  have hdrop :
      ("```mermaid\n".toList ++ (flowchart.toList ++ '\n' :: "```\n".toList)).drop (0 + 10 + 1) =
      flowchart.toList ++ '\n' :: "```\n".toList := rfl
  rw [Mermaid.block?, fenced_toList]
  simp only [hopen, List.drop_zero, hfeed, hdrop, hclose, hbody, String.ofList_toList]

/-- The text of a block holds no fence. -/
theorem not_infix_of_block? {block : String} (h : Mermaid.block? markdown = some block) :
    ¬ fence <:+: block.toList := by
  have hfence : "```".toList ≠ [] := by decide
  rw [Mermaid.block?] at h
  split at h
  · exact absurd h (by simp)
  · split at h
    · exact absurd h (by simp)
    · dsimp only at h
      split at h
      case h_1 hclose =>
          rw [← Option.some.inj h, String.toList_ofList]
          exact Text.not_infix_take_of_findPattern? hfence hclose
      case h_2 hclose =>
          rw [← Option.some.inj h, String.toList_ofList]
          exact (Text.findPattern?_eq_none_iff hfence).mp hclose

/-! ## Readable ids -/

/-- What an id must not hold to be read back. -/
structure IsReadable (id : String) : Prop where
  lineFeed : '\n' ∉ id.toList
  escape : ¬ quoteEscape <:+: id.toList
  fence : ¬ fence <:+: id.toList

instance (id : String) : Decidable (IsReadable id) :=
  decidable_of_iff ('\n' ∉ id.toList ∧ ¬ quoteEscape <:+: id.toList ∧ ¬ fence <:+: id.toList)
    ⟨fun h => ⟨h.1, h.2.1, h.2.2⟩, fun h => ⟨h.1, h.2, h.3⟩⟩

theorem lineFeed_notMem_writtenId (h : '\n' ∉ id.toList) :
    '\n' ∉ (Mermaid.writtenId id).toList := by
  rcases writtenId_cases id with ⟨-, hwritten⟩ | hwritten
  · rwa [hwritten]
  · rw [hwritten]
    intro hmem
    rw [List.mem_cons, List.mem_append, List.mem_singleton] at hmem
    rcases hmem with hquote | hinside | hquote
    · exact absurd hquote (by decide)
    · rcases Text.mem_of_mem_replaceFrom (List.cons_ne_nil _ _) hinside with hescape | hid
      · exact absurd hescape (by decide)
      · exact h hid
    · exact absurd hquote (by decide)

theorem fence_not_infix_writtenId (h : ¬ fence <:+: id.toList) :
    ¬ fence <:+: (Mermaid.writtenId id).toList := by
  rcases writtenId_cases id with ⟨-, hwritten⟩ | hwritten
  · rwa [hwritten]
  · have hquote : '"' ∉ fence := by decide
    rw [hwritten, Text.infix_cons_iff_of_notMem hquote, Text.infix_append_cons_iff hquote]
    rintro (hinside | hempty)
    · exact h (Text.infix_of_infix_replaceFrom (List.cons_ne_nil _ _) (by simp) hinside)
    · exact absurd hempty (by decide)

/-! ## Lines of edges and nodes -/

section Line

variable {edge : DiagramEdge} {node : DiagramNode}

theorem lineFeed_notMem_edgeLine (hsource : '\n' ∉ edge.source.toList)
    (htarget : '\n' ∉ edge.target.toList) : '\n' ∉ (Mermaid.edgeLine edge).toList := by
  rw [edgeLine_toList]
  simp only [List.mem_append, List.mem_cons, not_or]
  exact ⟨by decide, lineFeed_notMem_writtenId hsource, by decide, by decide, by decide,
    lineFeed_notMem_writtenId htarget⟩

theorem lineFeed_notMem_nodeLine (h : '\n' ∉ node.id.toList) :
    '\n' ∉ (Mermaid.nodeLine node).toList := by
  rw [nodeLine_toList, List.mem_append, not_or]
  exact ⟨by decide, lineFeed_notMem_writtenId h⟩

theorem getLast?_edgeLine (hne : edge.target ≠ "") :
    (Mermaid.edgeLine edge).toList.getLast?.any isEnd = true := by
  have hlast := getLast?_any_append (ends_writtenId hne).2
    ((Mermaid.writtenId edge.source).toList ++ ['-', '-', '>'])
  rw [List.append_assoc] at hlast
  rw [edgeLine_toList]
  exact getLast?_any_append hlast _

theorem getLast?_nodeLine (hne : node.id ≠ "") :
    (Mermaid.nodeLine node).toList.getLast?.any isEnd = true := by
  rw [nodeLine_toList]
  exact getLast?_any_append (ends_writtenId hne).2 _

theorem fence_not_infix_edgeLine (hsource : ¬ fence <:+: edge.source.toList)
    (htarget : ¬ fence <:+: edge.target.toList) : ¬ fence <:+: (Mermaid.edgeLine edge).toList := by
  rw [edgeLine_toList, Text.infix_append_iff_of_disjoint (by simp),
    Text.infix_append_cons_iff (by decide), Text.infix_cons_iff_of_notMem (by decide),
    Text.infix_cons_iff_of_notMem (by decide)]
  exact not_or.mpr ⟨fence_not_infix_writtenId hsource, fence_not_infix_writtenId htarget⟩

theorem fence_not_infix_nodeLine (h : ¬ fence <:+: node.id.toList) :
    ¬ fence <:+: (Mermaid.nodeLine node).toList := by
  rw [nodeLine_toList, Text.infix_append_iff_of_disjoint (by simp)]
  exact fence_not_infix_writtenId h

end Line

/-! ## Diagrams of graphs -/

/-- What the diagram of a graph has: ids that are not empty, in ascending order, and edges in
ascending order between different nodes. -/
structure IsProper (diagram : Diagram) : Prop where
  nonempty : ∀ id ∈ diagram.nodes.map (·.id), id ≠ ""
  ids_ascending : (diagram.nodes.map (·.id)).Pairwise (· < ·)
  edges_ascending : diagram.edges.Pairwise (· < ·)
  source_mem : ∀ edge ∈ diagram.edges, edge.source ∈ diagram.nodes.map (·.id)
  target_mem : ∀ edge ∈ diagram.edges, edge.target ∈ diagram.nodes.map (·.id)
  source_ne_target : ∀ edge ∈ diagram.edges, edge.source ≠ edge.target

theorem map_id_ofGraph (graph : LineageGraph) :
    (Diagram.ofGraph graph).nodes.map (·.id) = graph.sortedNodes.map (·.id.value) := by
  simp [Diagram.ofGraph]

theorem mem_ids_ofGraph {graph : LineageGraph} :
    id ∈ (Diagram.ofGraph graph).nodes.map (·.id) ↔ ∃ tableId ∈ graph.ids, tableId.value = id := by
  have hids := (LineageGraph.perm_sortedNodes graph).map (·.id.value)
  rw [map_id_ofGraph, hids.mem_iff, LineageGraph.ids]
  simp

theorem isProper_ofGraph (graph : LineageGraph) : IsProper (Diagram.ofGraph graph) where
  nonempty id hid := by
    obtain ⟨tableId, -, rfl⟩ := mem_ids_ofGraph.mp hid
    exact tableId.nonempty
  ids_ascending := by
    rw [map_id_ofGraph, List.pairwise_map]
    exact LineageGraph.pairwise_sortedNodes graph
  edges_ascending := by
    have hdependencies : graph.sortedDependencies.Pairwise (· < ·) := Order.pairwise_ascending _
    rw [Diagram.ofGraph, List.pairwise_map]
    refine hdependencies.imp ?_
    intro a b hab
    exact hab.imp_right fun h => ⟨congrArg TableId.value h.1, h.2⟩
  source_mem edge hedge := by
    obtain ⟨d, hd, rfl⟩ := List.mem_map.mp hedge
    exact mem_ids_ofGraph.mpr
      ⟨d.source, (graph.known d (LineageGraph.mem_sortedDependencies.mp hd)).1, rfl⟩
  target_mem edge hedge := by
    obtain ⟨d, hd, rfl⟩ := List.mem_map.mp hedge
    exact mem_ids_ofGraph.mpr
      ⟨d.target, (graph.known d (LineageGraph.mem_sortedDependencies.mp hd)).2.1, rfl⟩
  source_ne_target edge hedge := by
    obtain ⟨d, hd, rfl⟩ := List.mem_map.mp hedge
    intro heq
    exact (graph.known d (LineageGraph.mem_sortedDependencies.mp hd)).2.2 (TableId.ext_value heq)

theorem mem_isolated_iff {node : DiagramNode} :
    node ∈ diagram.isolated ↔ node ∈ diagram.nodes ∧
      ∀ edge ∈ diagram.edges, edge.source ≠ node.id ∧ edge.target ≠ node.id := by
  simp [Diagram.isolated, Diagram.isConnected]

theorem id_mem_of_mem_isolated {node : DiagramNode} (h : node ∈ diagram.isolated) :
    node.id ∈ diagram.nodes.map (·.id) :=
  List.mem_map_of_mem (mem_isolated_iff.mp h).1

/-- A node is isolated or at an end of an edge. -/
theorem mem_isolated_or_exists {node : DiagramNode} (h : node ∈ diagram.nodes) :
    node ∈ diagram.isolated ∨
      ∃ edge ∈ diagram.edges, edge.source = node.id ∨ edge.target = node.id := by
  by_contra! hneither
  exact hneither.1 (mem_isolated_iff.mpr ⟨h, hneither.2⟩)

/-! ## Written lines -/

theorem intercalate_lineFeed {ls : List (List Char)} (hne : ls ≠ []) :
    ['\n'].intercalate ls ++ ['\n'] = ls.flatMap (· ++ ['\n']) := by
  induction ls with
  | nil => exact absurd rfl hne
  | cons first ls ih =>
      cases ls with
      | nil => simp [List.intercalate]
      | cons second ls =>
          rw [List.intercalate_cons_cons, List.append_assoc, ih (List.cons_ne_nil second ls)]
          rfl

theorem toMermaid_toList (diagram : Diagram) :
    diagram.toMermaid.toList = ['\n'].intercalate (diagram.mermaidLines.map String.toList) := by
  have hfeed : "\n".toList = ['\n'] := by simp
  rw [Diagram.toMermaid, String.toList_intercalate, hfeed]

/-- With a line feed at its end, a flowchart is the text of its lines. -/
theorem toMermaid_lineFeed_toList (diagram : Diagram) :
    (diagram.toMermaid ++ "\n").toList =
      (diagram.mermaidLines.map String.toList).flatMap (· ++ ['\n']) := by
  rw [String.toList_append, toMermaid_toList]
  exact intercalate_lineFeed (List.cons_ne_nil _ _)

theorem fence_not_infix_flatMap {ls : List (List Char)} (h : ∀ line ∈ ls, ¬ fence <:+: line) :
    ¬ fence <:+: ls.flatMap (· ++ ['\n']) := by
  induction ls with
  | nil => decide
  | cons line ls ih =>
      rw [List.flatMap_cons, List.append_assoc, List.singleton_append,
        Text.infix_append_cons_iff (by decide)]
      exact not_or.mpr ⟨h line List.mem_cons_self,
        ih fun other hother => h other (List.mem_cons_of_mem line hother)⟩

/-- What the lines of a written diagram say. -/
def writtenLines (diagram : Diagram) : List Line :=
  .blank :: (diagram.edges.map (fun edge => .edge edge.source edge.target) ++
    diagram.isolated.map fun node => .node node.id)

section Written

variable (hproper : IsProper diagram)
include hproper

/-- What holds of the header, of edges between nodes and of nodes holds of all lines. -/
theorem forall_mem_mermaidLines {P : String → Prop} (hheader : P "flowchart TD")
    (hedge : ∀ edge : DiagramEdge, edge.source ∈ diagram.nodes.map (·.id) →
      edge.target ∈ diagram.nodes.map (·.id) → P (Mermaid.edgeLine edge))
    (hnode : ∀ node : DiagramNode, node.id ∈ diagram.nodes.map (·.id) → P (Mermaid.nodeLine node)) :
    ∀ line ∈ diagram.mermaidLines, P line := by
  intro line hline
  rw [Diagram.mermaidLines, List.mem_cons, List.mem_append] at hline
  rcases hline with rfl | hline | hline
  · exact hheader
  · obtain ⟨edge, hmem, rfl⟩ := List.mem_map.mp hline
    exact hedge edge (hproper.source_mem edge hmem) (hproper.target_mem edge hmem)
  · obtain ⟨node, hmem, rfl⟩ := List.mem_map.mp hline
    exact hnode node (id_mem_of_mem_isolated hmem)

theorem lineFeed_notMem_of_mem_mermaidLines
    (hfeed : ∀ id ∈ diagram.nodes.map (·.id), '\n' ∉ id.toList) :
    ∀ line ∈ diagram.mermaidLines, '\n' ∉ line.toList :=
  forall_mem_mermaidLines hproper (by decide)
    (fun _ hsource htarget => lineFeed_notMem_edgeLine (hfeed _ hsource) (hfeed _ htarget))
    fun _ hid => lineFeed_notMem_nodeLine (hfeed _ hid)

/-- Lines end with a character of ids or with a quote, so there is no carriage return at their
end. -/
theorem getLast?_of_mem_mermaidLines :
    ∀ line ∈ diagram.mermaidLines, line.toList.getLast?.any isEnd = true :=
  forall_mem_mermaidLines hproper (by decide)
    (fun _ _ htarget => getLast?_edgeLine (hproper.nonempty _ htarget))
    fun _ hid => getLast?_nodeLine (hproper.nonempty _ hid)

theorem fence_not_infix_toMermaid (hreadable : ∀ id ∈ diagram.nodes.map (·.id), IsReadable id) :
    ¬ fence <:+: diagram.toMermaid.toList := by
  have hlines : ∀ line ∈ diagram.mermaidLines, ¬ fence <:+: line.toList :=
    forall_mem_mermaidLines hproper (by decide)
      (fun _ hsource htarget =>
        fence_not_infix_edgeLine (hreadable _ hsource).fence (hreadable _ htarget).fence)
      fun _ hid => fence_not_infix_nodeLine (hreadable _ hid).fence
  have hall := fence_not_infix_flatMap (List.forall_mem_map.mpr hlines)
  rw [← toMermaid_lineFeed_toList, String.toList_append] at hall
  exact fun hfence => hall (hfence.trans (List.prefix_append _ _).isInfix)

/-- What the written lines say, if no id holds the escape. -/
theorem map_ofText_mermaidLines
    (hescape : ∀ id ∈ diagram.nodes.map (·.id), ¬ quoteEscape <:+: id.toList) :
    (diagram.mermaidLines.map String.toList).map Line.ofText = writtenLines diagram := by
  have hedges : ∀ edge ∈ diagram.edges,
      Line.ofText (Mermaid.edgeLine edge).toList = .edge edge.source edge.target := by
    intro edge hedge
    have hsource := hproper.source_mem edge hedge
    have htarget := hproper.target_mem edge hedge
    exact ofText_edgeLine (hproper.nonempty _ hsource) (hproper.nonempty _ htarget)
      (hescape _ hsource) (hescape _ htarget)
  have hnodes : ∀ node ∈ diagram.isolated,
      Line.ofText (Mermaid.nodeLine node).toList = .node node.id := by
    intro node hnode
    have hid := id_mem_of_mem_isolated hnode
    exact ofText_nodeLine (hproper.nonempty _ hid) (hescape _ hid)
  calc (diagram.mermaidLines.map String.toList).map Line.ofText
      = Line.ofText "flowchart TD".toList ::
          (diagram.edges.map (fun edge => Line.ofText (Mermaid.edgeLine edge).toList) ++
            diagram.isolated.map fun node => Line.ofText (Mermaid.nodeLine node).toList) := by
        simp [Diagram.mermaidLines, Function.comp_def]
    _ = writtenLines diagram := by
        rw [writtenLines, List.map_congr_left hedges, List.map_congr_left hnodes,
          show Line.ofText "flowchart TD".toList = .blank by decide]

/-- The lines that are read are the lines that were written, with a line feed at the end and
without. -/
theorem readLines_written (hfeed : ∀ id ∈ diagram.nodes.map (·.id), '\n' ∉ id.toList)
    (hescape : ∀ id ∈ diagram.nodes.map (·.id), ¬ quoteEscape <:+: id.toList) :
    readLines (diagram.toMermaid ++ "\n") = writtenLines diagram ∧
      readLines diagram.toMermaid = writtenLines diagram := by
  have hlineFeed : ∀ line ∈ diagram.mermaidLines.map String.toList, '\n' ∉ line :=
    List.forall_mem_map.mpr (lineFeed_notMem_of_mem_mermaidLines hproper hfeed)
  have hends : ∀ line ∈ diagram.mermaidLines.map String.toList, line.getLast?.any isEnd = true :=
    List.forall_mem_map.mpr (getLast?_of_mem_mermaidLines hproper)
  -- no written line ends with a return, so the lines of the text are the written ones
  have hreturn : ∀ line ∈ diagram.mermaidLines.map String.toList, line.getLast? ≠ some '\r' := by
    intro line hline hreturn
    have hend := hends line hline
    rw [hreturn] at hend
    exact absurd hend (by decide)
  have hne : diagram.mermaidLines.map String.toList ≠ [] := List.cons_ne_nil _ _
  obtain ⟨last, hlast⟩ := Option.ne_none_iff_exists'.mp (mt List.getLast?_eq_none_iff.mp hne)
  have hlastNe : last ≠ [] := by
    rintro rfl
    have hend := hends [] (List.mem_of_getLast? hlast)
    exact absurd hend (by decide)
  rw [readLines, readLines, toMermaid_lineFeed_toList, toMermaid_toList,
    Text.lines_flatMap hlineFeed hreturn, Text.lines_intercalate hlast hlastNe hlineFeed hreturn]
  exact ⟨map_ofText_mermaidLines hproper hescape, map_ofText_mermaidLines hproper hescape⟩

theorem readLines_toMermaid (hreadable : ∀ id ∈ diagram.nodes.map (·.id), IsReadable id) :
    readLines (diagram.toMermaid ++ "\n") = writtenLines diagram :=
  (readLines_written hproper (fun id hid => (hreadable id hid).lineFeed)
    fun id hid => (hreadable id hid).escape).1

end Written

end Flowchart

end TableLineage
