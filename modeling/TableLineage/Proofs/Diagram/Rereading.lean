import TableLineage.Proofs.Diagram.ReadBack

/-!
# Reading any text, and reading it again

Whatever the lines of a text are, edges, ids or neither, the diagram that they draw is well formed
(`isWellRead_parse`): it has what the diagram of a graph has, and besides its ids hold no line feed
and no escape.  That is all that is needed for what is written of it to be read back, with the same
ids and edges, and from then on nothing changes (`parse_is_stable`).

Kinds are not written: a table that was first met on a line of its own is a model, and if edges only
lead away from it, it is a source when it is read again.
-/

namespace TableLineage

namespace Flowchart

variable {id : String} {lines : List Line} {edge : DiagramEdge} {node : DiagramNode}
  {diagram : Diagram}

/-! ## Nodes -/

/-- A table to which an edge leads is a model. -/
theorem kind_of_target (hnode : node ∈ (diagramOf lines).nodes)
    (hedge : edge ∈ (diagramOf lines).edges)
    (htarget : edge.target = node.id) : node.kind = .model := by
  have hkind := lookup_of_mem_diagramOf hnode
  rw [diagramOf, Order.mem_ascending] at hedge
  rw [lookup_foldl_afterLine, if_pos (List.mem_map.mpr ⟨edge, hedge, htarget⟩)] at hkind
  exact (Option.some.inj hkind).symm

/-! ## Well-formed diagrams -/

/-- What every diagram has that is read from a text: it is proper, nodes are named by their ids,
tables to which an edge leads are models, and no id holds a line feed or the escape. -/
structure IsWellRead (diagram : Diagram) : Prop extends IsProper diagram where
  name_eq : ∀ node ∈ diagram.nodes, node.name = node.id
  target_kind : ∀ node ∈ diagram.nodes, ∀ edge ∈ diagram.edges,
    edge.target = node.id → node.kind = .model
  lineFeed : ∀ id ∈ diagram.nodes.map (·.id), '\n' ∉ id.toList
  escape : ∀ id ∈ diagram.nodes.map (·.id), ¬ quoteEscape <:+: id.toList

theorem nonempty_of_isReadFrom {text : List Char} (h : IsReadFrom id text) : id ≠ "" := by
  obtain ⟨piece, hne, -, rfl⟩ := h
  rw [unescape_eq, ne_eq, String.ofList_eq_empty_iff]
  exact mt (Text.replaceFrom_eq_nil_iff (List.cons_ne_nil _ _)).mp hne

/-- Ids are read from pieces of lines, so nothing is left in them that would end a line or be read
as an escape. -/
theorem isWellRead_parse (text : String) : IsWellRead (parse text) where
  -- ids come from pieces of lines, edges from lines, and the lists are sorted
  nonempty id hid := by
    obtain ⟨line, -, hread⟩ := exists_isReadFrom_of_mem_parse hid
    exact nonempty_of_isReadFrom hread
  ids_ascending := by
    rw [parse, ids_diagramOf]
    exact Order.pairwise_ascending _
  edges_ascending := Order.pairwise_ascending _
  source_mem edge hedge := by
    obtain ⟨line, hline, hdrawn⟩ := mem_edges_diagramOf.mp hedge
    exact mem_ids_diagramOf.mpr ⟨line, hline, (isSome_kindOf?_of_edge? hdrawn).1⟩
  target_mem edge hedge := by
    obtain ⟨line, hline, hdrawn⟩ := mem_edges_diagramOf.mp hedge
    exact mem_ids_diagramOf.mpr ⟨line, hline, (isSome_kindOf?_of_edge? hdrawn).2⟩
  source_ne_target edge hedge := by
    obtain ⟨line, -, hdrawn⟩ := mem_edges_diagramOf.mp hedge
    exact (edge?_eq_some_iff.mp hdrawn).2
  name_eq _ hnode := (mem_nodes_diagramOf.mp hnode).2
  target_kind _ hnode _ hedge htarget := kind_of_target hnode hedge htarget
  lineFeed _ hid := lineFeed_notMem_of_mem_parse hid
  escape _ hid := quoteEscape_not_infix_of_mem_parse hid

/-! ## Reading again -/

/-- What is written of a diagram that was read draws it. -/
theorem IsWellRead.redraws (h : IsWellRead diagram) :
    Redraws diagram (parse diagram.toMermaid) := by
  rw [parse, (readLines_written h.toIsProper h.lineFeed h.escape).2]
  exact redraws_writtenLines h.toIsProper

/-- Of a diagram only the ids and the edges are written. -/
theorem Redraws.toMermaid_eq {read : Diagram} (h : Redraws diagram read) :
    read.toMermaid = diagram.toMermaid := by
  have hisolated : ∀ shown : Diagram, shown.isolated.map Mermaid.nodeLine =
      ((shown.nodes.map (·.id)).filter fun id => !shown.isConnected id).map fun id =>
        "    " ++ Mermaid.writtenId id := by
    intro shown
    rw [Diagram.isolated, List.filter_map, List.map_map]
    rfl
  have hconnected : read.isConnected = diagram.isConnected := by
    funext id
    rw [Diagram.isConnected, Diagram.isConnected, h.edges]
  have hlines : read.mermaidLines = diagram.mermaidLines := by
    have hnodes : read.isolated.map Mermaid.nodeLine = diagram.isolated.map Mermaid.nodeLine := by
      rw [hisolated, hisolated, h.ids, hconnected]
    rw [Diagram.mermaidLines, Diagram.mermaidLines, h.edges, hnodes]
  exact congrArg "\n".intercalate hlines

/-- **Reading is total and stable.**  Of every text a well-formed diagram is read.  What is written
of it is read with the same ids and edges, and written in the same way again. -/
theorem parse_is_stable (text : String) :
    IsWellRead (parse text) ∧ Redraws (parse text) (parse (parse text).toMermaid) ∧
      (parse (parse text).toMermaid).toMermaid = (parse text).toMermaid := by
  have hwell := isWellRead_parse text
  exact ⟨hwell, hwell.redraws, hwell.redraws.toMermaid_eq⟩

/-- The table on a line of its own becomes a source, and nothing else changes. -/
example :
    let drawn := parse "graph LR\n  \"x#quot;y\";\n  \"x#quot;y\" --> b\n  c --> c\n-->"
    let again := parse drawn.toMermaid
    drawn = ⟨[⟨"b", "b", .model⟩, ⟨"x\"y", "x\"y", .model⟩], [⟨"x\"y", "b"⟩]⟩ ∧
      again = ⟨[⟨"b", "b", .model⟩, ⟨"x\"y", "x\"y", .source⟩], [⟨"x\"y", "b"⟩]⟩ ∧
      parse again.toMermaid = again := by
  decide +kernel

end Flowchart

end TableLineage
