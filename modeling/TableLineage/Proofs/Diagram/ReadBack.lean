import TableLineage.Proofs.Diagram.DrawnLines
import TableLineage.Proofs.Diagram.WrittenText

/-!
# Reading a written diagram back

The lines of a proper diagram draw the same ids in the same order and the same edges.  Kinds are not
written, so a table is read as a model if an edge leads to it or if it has no edge
(`redraws_writtenLines`).

Of a block no other ids than readable ones are read (`isReadable_of_mem_parse`): an id is the
meaning of a piece of a line, its escapes have become quotes, and a block ends at a fence.  Hence a
graph is read back from Markdown if its ids are readable, and an id that is not readable is never
read back (`markdown_read_back`).
-/

namespace TableLineage

namespace Flowchart

variable {id markdown : String} {text : List Char} {diagram : Diagram}

/-! ## What is read -/

/-- The second diagram shows the first: the same ids in the same order, the same edges, and as
models the tables to which an edge leads or which have no edge. -/
structure Redraws (drawn read : Diagram) : Prop where
  ids : read.nodes.map (·.id) = drawn.nodes.map (·.id)
  edges : read.edges = drawn.edges
  kind : ∀ node ∈ read.nodes, node.kind = .model ↔
    (∃ edge ∈ drawn.edges, edge.target = node.id) ∨
      ∀ edge ∈ drawn.edges, edge.source ≠ node.id ∧ edge.target ≠ node.id

theorem edges_writtenLines (hproper : IsProper diagram) :
    (writtenLines diagram).filterMap Line.edge? = diagram.edges := by
  have hedges : diagram.edges.filterMap
      (Line.edge? ∘ fun edge => .edge edge.source edge.target) = diagram.edges := by
    calc diagram.edges.filterMap (Line.edge? ∘ fun edge => .edge edge.source edge.target)
        = diagram.edges.filterMap some :=
          List.filterMap_congr fun edge hedge => if_neg (hproper.source_ne_target edge hedge)
      _ = diagram.edges := List.filterMap_some
  have hnodes : diagram.isolated.filterMap (Line.edge? ∘ fun node => .node node.id) = [] :=
    List.filterMap_eq_nil_iff.mpr fun _ _ => rfl
  calc (writtenLines diagram).filterMap Line.edge?
      = (diagram.edges.map fun edge => Line.edge edge.source edge.target).filterMap Line.edge? ++
          (diagram.isolated.map fun node => Line.node node.id).filterMap Line.edge? := by
        rw [writtenLines, List.filterMap_cons_none rfl, List.filterMap_append]
    _ = diagram.edges ++ [] := by
        rw [List.filterMap_map, List.filterMap_map, hedges, hnodes]
    _ = diagram.edges := List.append_nil _

/-- Every line of a written diagram that mentions a table is an edge at the table, or the line of a
node without edges. -/
theorem mention_cases {line : Line} {kind : NodeKind} (hline : line ∈ writtenLines diagram)
    (hkind : line.kindOf? id = some kind) :
    (∃ edge ∈ diagram.edges, edge.source = id ∧ kind = .source) ∨
      (∃ edge ∈ diagram.edges, edge.target = id ∧ kind = .model) ∨
      (∃ node ∈ diagram.isolated, node.id = id ∧ kind = .model) := by
  rw [writtenLines, List.mem_cons, List.mem_append] at hline
  rcases hline with rfl | hedge | hnode
  · exact absurd hkind (by simp [Line.kindOf?])
  · obtain ⟨edge, hmem, rfl⟩ := List.mem_map.mp hedge
    simp only [Line.kindOf?] at hkind
    split at hkind
    · exact absurd hkind (by simp)
    · split at hkind
      case isTrue hsource => exact .inl ⟨edge, hmem, hsource, (Option.some.inj hkind).symm⟩
      case isFalse =>
          rw [Option.ite_none_right_eq_some] at hkind
          exact .inr (.inl ⟨edge, hmem, hkind.1, (Option.some.inj hkind.2).symm⟩)
  · obtain ⟨node, hmem, rfl⟩ := List.mem_map.mp hnode
    rw [Line.kindOf?, Option.ite_none_right_eq_some] at hkind
    exact .inr (.inr ⟨node, hmem, hkind.1, (Option.some.inj hkind.2).symm⟩)

/-- Every node is mentioned on a line. -/
theorem exists_mention (hproper : IsProper diagram) {node : DiagramNode}
    (h : node ∈ diagram.nodes) :
    ∃ line ∈ writtenLines diagram, (line.kindOf? node.id).isSome = true := by
  rcases mem_isolated_or_exists h with hisolated | ⟨edge, hedge, hends⟩
  · have hline : .node node.id ∈ writtenLines diagram :=
      List.mem_cons_of_mem _ (List.mem_append_right _ (List.mem_map.mpr ⟨node, hisolated, rfl⟩))
    exact ⟨_, hline, by simp [Line.kindOf?]⟩
  · have hline : .edge edge.source edge.target ∈ writtenLines diagram :=
      List.mem_cons_of_mem _ (List.mem_append_left _ (List.mem_map.mpr ⟨edge, hedge, rfl⟩))
    refine ⟨_, hline, ?_⟩
    rw [Line.kindOf?, if_neg (hproper.source_ne_target edge hedge)]
    rcases hends with hsource | htarget
    · simp [hsource]
    · simp only [htarget]
      split <;> simp

theorem mem_ids_writtenLines (hproper : IsProper diagram) :
    id ∈ (diagramOf (writtenLines diagram)).nodes.map (·.id) ↔ id ∈ diagram.nodes.map (·.id) := by
  rw [mem_ids_diagramOf]
  constructor
  · rintro ⟨line, hline, hmention⟩
    obtain ⟨kind, hkind⟩ := Option.isSome_iff_exists.mp hmention
    rcases mention_cases hline hkind with ⟨edge, hedge, rfl, -⟩ | ⟨edge, hedge, rfl, -⟩ |
      ⟨node, hnode, rfl, -⟩
    · exact hproper.source_mem edge hedge
    · exact hproper.target_mem edge hedge
    · exact id_mem_of_mem_isolated hnode
  · intro hid
    obtain ⟨node, hnode, rfl⟩ := List.mem_map.mp hid
    exact exists_mention hproper hnode

/-- The lines of a diagram draw the diagram. -/
theorem redraws_writtenLines (hproper : IsProper diagram) :
    Redraws diagram (diagramOf (writtenLines diagram)) where
  ids := by
    apply Order.eq_of_mem_iff _ hproper.ids_ascending fun id => mem_ids_writtenLines hproper
    rw [ids_diagramOf]
    exact Order.pairwise_ascending _
  edges := by
    rw [diagramOf, edges_writtenLines hproper, Order.ascending_eq_self hproper.edges_ascending]
  kind node hnode := by
    have hkind := lookup_of_mem_diagramOf hnode
    rw [lookup_foldl_afterLine, edges_writtenLines hproper] at hkind
    split at hkind
    -- an edge leads to the table, which makes it a model in both
    case isTrue htarget =>
        obtain ⟨edge, hedge, heq⟩ := List.mem_map.mp htarget
        exact iff_of_true (Option.some.inj hkind).symm (.inl ⟨edge, hedge, heq⟩)
    case isFalse htarget =>
        have hno : ¬ ∃ edge ∈ diagram.edges, edge.target = node.id := by
          rintro ⟨edge, hedge, heq⟩
          exact htarget (List.mem_map.mpr ⟨edge, hedge, heq⟩)
        -- without one, the first line that mentions the table gives its kind
        obtain ⟨line, hline, hmention⟩ := List.exists_of_findSome?_eq_some hkind
        rcases mention_cases hline hmention with
          ⟨edge, hedge, hsource, hk⟩ | ⟨edge, hedge, heq, -⟩ | ⟨lone, hlone, heq, hk⟩
        · rw [hk]
          refine iff_of_false (by decide) (not_or.mpr ⟨hno, ?_⟩)
          exact fun hnone => (hnone edge hedge).1 hsource
        · exact absurd ⟨edge, hedge, heq⟩ hno
        · rw [hk, ← heq]
          exact iff_of_true rfl (.inr (mem_isolated_iff.mp hlone).2)

/-! ## What can be read at all -/

/-- The ids that a line holds. -/
def Line.ids : Line → List String
  | .edge source target => [source, target]
  | .node id => [id]
  | .blank | .unknown _ => []

theorem mem_ids_of_kindOf? {line : Line} (h : (line.kindOf? id).isSome = true) : id ∈ line.ids := by
  cases line with
  | edge source target =>
      simp only [Line.kindOf?] at h
      rw [Line.ids, List.mem_cons, List.mem_singleton]
      split at h
      · exact absurd h (by simp)
      · split at h
        case isTrue hsource => exact .inl hsource.symm
        case isFalse =>
            split at h
            case isTrue htarget => exact .inr htarget.symm
            case isFalse => exact absurd h (by simp)
  | node other =>
      rw [Line.kindOf?] at h
      split at h
      case isTrue hother => exact List.mem_singleton.mpr hother.symm
      case isFalse => exact absurd h (by simp)
  | blank => exact absurd h (by simp [Line.kindOf?])
  | unknown text => exact absurd h (by simp [Line.kindOf?])

/-- An id is the meaning of a piece of a text that is not empty. -/
def IsReadFrom (id : String) (text : List Char) : Prop :=
  ∃ piece, piece ≠ [] ∧ piece <:+: text ∧ id = unescape piece

theorem IsReadFrom.mono {other : List Char} (h : IsReadFrom id text) (hinside : text <:+: other) :
    IsReadFrom id other := by
  obtain ⟨piece, hne, hpiece, heq⟩ := h
  exact ⟨piece, hne, hpiece.trans hinside, heq⟩

theorem isReadFrom_of_id? {rest : List Char} (h : id? text = some (id, rest)) :
    IsReadFrom id text ∧ rest <:+: text := by
  unfold id? at h
  split at h
  case h_1 after =>
      dsimp only at h
      split at h
      case h_1 c rest' hdrop =>
          rw [Option.ite_none_left_eq_some, Option.some.injEq, Prod.mk.injEq, List.isEmpty_iff] at h
          obtain ⟨hne, hid, hrest⟩ := h
          -- quoted: the piece is what stands between the quotes
          refine ⟨⟨_, hne, List.infix_cons (List.takeWhile_prefix _).isInfix, hid.symm⟩, ?_⟩
          have hafter : c :: rest' <:+ after := hdrop ▸ List.drop_suffix _ _
          rw [← hrest]
          exact List.infix_cons ((List.suffix_cons c rest').trans hafter).isInfix
      case h_2 => exact absurd h (by simp)
  case h_2 =>
      dsimp only at h
      rw [Option.ite_none_left_eq_some, Option.some.injEq, Prod.mk.injEq, List.isEmpty_iff] at h
      obtain ⟨hne, hid, hrest⟩ := h
      -- bare: the piece is the longest start of id characters
      refine ⟨⟨_, hne, (List.takeWhile_prefix _).isInfix, hid.symm⟩, ?_⟩
      rw [← hrest]
      exact (List.drop_suffix _ _).isInfix

theorem isReadFrom_of_statement? {line : Line} (h : statement? text = some line)
    (hid : id ∈ line.ids) :
    IsReadFrom id text := by
  unfold statement? at h
  split at h
  case h_1 => exact absurd h (by simp)
  case h_2 source rest hsource =>
      obtain ⟨hfirst, hinside⟩ := isReadFrom_of_id? hsource
      split at h
      case h_1 rest' hrest =>
          split at h
          case h_1 target rest'' htarget =>
              rw [Option.ite_none_right_eq_some, Option.some.injEq] at h
              obtain ⟨-, rfl⟩ := h
              -- the target is read from what follows the arrow
              have hblanks : rest' <:+: rest := by
                have harrow : '-' :: '-' :: '>' :: rest' <:+ rest := hrest ▸ List.dropWhile_suffix _
                exact ((List.suffix_append ['-', '-', '>'] rest').trans harrow).isInfix
              rw [Line.ids, List.mem_cons, List.mem_singleton] at hid
              rcases hid with rfl | rfl
              · exact hfirst
              · have hafter : afterBlanks rest' <:+: rest' := (List.dropWhile_suffix _).isInfix
                exact (isReadFrom_of_id? htarget).1.mono ((hafter.trans hblanks).trans hinside)
          case h_2 => exact absurd h (by simp)
      case h_2 =>
          rw [Option.ite_none_right_eq_some, Option.some.injEq] at h
          obtain ⟨-, rfl⟩ := h
          obtain rfl := List.mem_singleton.mp hid
          exact hfirst

theorem isReadFrom_of_mem_ofText (hid : id ∈ (Line.ofText text).ids) : IsReadFrom id text := by
  rw [Line.ofText] at hid
  split at hid
  · exact absurd hid List.not_mem_nil
  · cases hstatement : statement? (Text.trimWhile Text.isBlank text) with
    | none =>
        rw [hstatement] at hid
        exact absurd hid List.not_mem_nil
    | some line =>
        rw [hstatement] at hid
        exact (isReadFrom_of_statement? hstatement hid).mono (Text.trimWhile_infix _ _)

/-- Every id of a diagram is read from a line of the text. -/
theorem exists_isReadFrom_of_mem_parse {flowchart : String}
    (h : id ∈ (parse flowchart).nodes.map (·.id)) :
    ∃ line ∈ Text.lines flowchart.toList, IsReadFrom id line := by
  obtain ⟨line, hline, hmention⟩ := mem_ids_diagramOf.mp h
  obtain ⟨written, hwritten, rfl⟩ := List.mem_map.mp hline
  exact ⟨written, hwritten, isReadFrom_of_mem_ofText (mem_ids_of_kindOf? hmention)⟩

theorem lineFeed_notMem_unescape (h : '\n' ∉ text) : '\n' ∉ (unescape text).toList := by
  rw [unescape_eq, String.toList_ofList]
  intro hmem
  rcases Text.mem_of_mem_replaceFrom (List.cons_ne_nil _ _) hmem with hquote | htext
  · exact absurd hquote (by decide)
  · exact h htext

/-- Nothing that is read holds the escape, also not where replaced pieces meet. -/
theorem quoteEscape_not_infix_unescape (text : List Char) :
    ¬ quoteEscape <:+: (unescape text).toList := by
  rw [unescape_eq, String.toList_ofList]
  exact Text.not_infix_replaceFrom (List.cons_ne_nil _ _) (by simp)

theorem fence_not_infix_unescape (h : ¬ fence <:+: text) : ¬ fence <:+: (unescape text).toList := by
  rw [unescape_eq, String.toList_ofList]
  exact mt (Text.infix_of_infix_replaceFrom (List.cons_ne_nil _ _) (by simp)) h

theorem lineFeed_notMem_of_mem_parse {flowchart : String}
    (h : id ∈ (parse flowchart).nodes.map (·.id)) : '\n' ∉ id.toList := by
  obtain ⟨line, hline, piece, -, hpiece, rfl⟩ := exists_isReadFrom_of_mem_parse h
  exact lineFeed_notMem_unescape fun hfeed =>
    Text.lineFeed_notMem_of_mem_lines hline (hpiece.subset hfeed)

theorem quoteEscape_not_infix_of_mem_parse {flowchart : String}
    (h : id ∈ (parse flowchart).nodes.map (·.id)) : ¬ quoteEscape <:+: id.toList := by
  obtain ⟨line, -, piece, -, -, rfl⟩ := exists_isReadFrom_of_mem_parse h
  exact quoteEscape_not_infix_unescape piece

/-- Of a text without fences only readable ids are read. -/
theorem isReadable_of_mem_parse {block : String} (hfence : ¬ fence <:+: block.toList)
    (h : id ∈ (parse block).nodes.map (·.id)) : IsReadable id where
  lineFeed := lineFeed_notMem_of_mem_parse h
  escape := quoteEscape_not_infix_of_mem_parse h
  fence := by
    obtain ⟨line, hline, piece, -, hpiece, rfl⟩ := exists_isReadFrom_of_mem_parse h
    exact fence_not_infix_unescape fun hpieceFence =>
      hfence (hpieceFence.trans (hpiece.trans (Text.infix_of_mem_lines hline)))

/-! ## Graphs in Markdown -/

/-- A graph with readable ids is read back from its fenced flowchart, and an id that is not readable
is never read back, whatever else the graph holds. -/
theorem markdown_read_back (graph : LineageGraph) :
    ((∀ id ∈ graph.ids, IsReadable id.value) →
      ∃ block, Mermaid.block? (Mermaid.fenced (Diagram.ofGraph graph).toMermaid) = some block ∧
        Redraws (Diagram.ofGraph graph) (parse block)) ∧
    ∀ id ∈ graph.ids, ¬ IsReadable id.value →
      ∀ block, Mermaid.block? (Mermaid.fenced (Diagram.ofGraph graph).toMermaid) = some block →
        id.value ∉ (parse block).nodes.map (·.id) := by
  constructor
  · intro hids
    have hproper := isProper_ofGraph graph
    have hreadable : ∀ id ∈ (Diagram.ofGraph graph).nodes.map (·.id), IsReadable id := by
      intro id hid
      obtain ⟨tableId, hmem, rfl⟩ := mem_ids_ofGraph.mp hid
      exact hids tableId hmem
    refine ⟨_, block?_fenced (fence_not_infix_toMermaid hproper hreadable), ?_⟩
    rw [parse, readLines_toMermaid hproper hreadable]
    exact redraws_writtenLines hproper
  · intro id _ hunreadable block hblock hmem
    exact hunreadable (isReadable_of_mem_parse (not_infix_of_block? hblock) hmem)

theorem markdown_read_back_quoted :
    let graph := ((LineageGraph.empty.addSource ⟨"raw --> \"x\";", by decide⟩ "").addModel
      ⟨"end", by decide⟩ "").addDependency "raw --> \"x\";" "end"
    let lost : TableId := ⟨"a#quot;b", by decide⟩
    let unreadable := LineageGraph.empty.addModel lost ""
    (∃ block, Mermaid.block? (Mermaid.fenced (Diagram.ofGraph graph).toMermaid) = some block ∧
      Redraws (Diagram.ofGraph graph) (parse block)) ∧
    ∀ block, Mermaid.block? (Mermaid.fenced (Diagram.ofGraph unreadable).toMermaid) = some block →
      lost.value ∉ (parse block).nodes.map (·.id) := by
  intro graph lost unreadable
  have hreadable : ∀ id ∈ graph.ids, IsReadable id.value := by decide +kernel
  have hlost : lost ∈ unreadable.ids := by decide
  have hunreadable : ¬ IsReadable lost.value := by decide
  exact ⟨(markdown_read_back graph).1 hreadable,
    (markdown_read_back unreadable).2 lost hlost hunreadable⟩

end Flowchart

end TableLineage
