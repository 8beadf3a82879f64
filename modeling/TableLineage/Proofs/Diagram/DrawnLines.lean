import Mathlib.Data.List.Induction
import TableLineage.Diagram.Flowchart
import TableLineage.Proofs.Order.StrictLists

/-!
# What lines draw

A table is a model if a line draws an edge to it.  Otherwise its kind is that which the first line
that mentions it gives to it (`lookup_foldl_afterLine`).  A line on which an edge goes from a table
to itself mentions nothing.

So the nodes of a diagram that lines draw are the tables that a line mentions (`mem_ids_diagramOf`),
in ascending order.
-/

namespace TableLineage

namespace Flowchart

variable {id other : String} {kind : NodeKind} {kinds : Kinds} {lines : List Line}

/-! ## Kinds -/

theorem any_key_eq (kinds : Kinds) (id : String) :
    (kinds.any fun entry => entry.1 == id) = (kinds.lookup id).isSome := by
  rw [Bool.eq_iff_iff, List.lookup_isSome_iff, List.any_eq_true]
  simp only [BEq.comm]

theorem lookup_meet (kinds : Kinds) (id other : String) (kind : NodeKind) :
    (kinds.meet other kind).lookup id =
      (kinds.lookup id).or (if other = id then some kind else none) := by
  rw [Kinds.meet, any_key_eq]
  by_cases hother : other = id
  · subst hother
    cases hfound : kinds.lookup other with
    | none => simp [List.lookup_append, hfound]
    | some found => simp [hfound]
  · have hne : (id == other) = false := by simpa using Ne.symm hother
    split <;> simp [List.lookup_append, List.lookup_cons, hne]

theorem lookup_map_model (kinds : Kinds) (id other : String) :
    (kinds.map fun entry => if entry.1 = other then (other, .model) else entry).lookup id =
      (kinds.lookup id).map fun kind => if other = id then .model else kind := by
  induction kinds with
  | nil => rfl
  | cons entry kinds ih =>
      obtain ⟨key, kind⟩ := entry
      rw [List.map_cons, List.lookup_cons, List.lookup_cons, ih]
      by_cases hkey : key = other
      · subst hkey
        by_cases hid : id = key
        · simp [hid]
        · have hne : (id == key) = false := by simpa using hid
          simp [hne]
      · by_cases hid : id = key
        · simp [hid, hkey, Ne.symm hkey]
        · have hne : (id == key) = false := by simpa using hid
          simp [hne, hkey]

theorem lookup_setModel (kinds : Kinds) (id other : String) :
    (kinds.setModel other).lookup id = if other = id then some .model else kinds.lookup id := by
  rw [Kinds.setModel, any_key_eq]
  by_cases hother : other = id
  · subst hother
    cases hfound : kinds.lookup other with
    | none => simp [List.lookup_append, hfound]
    | some found => simp [lookup_map_model, hfound]
  · have hne : (id == other) = false := by simpa using Ne.symm hother
    split
    · simp [lookup_map_model, hother]
    · simp [List.lookup_append, List.lookup_cons, hne]

/-- The kind that a line gives to a table which was not met before. -/
def Line.kindOf? (id : String) : Line → Option NodeKind
  | .edge source target =>
    if source = target then none
    else if source = id then some .source
    else if target = id then some .model
    else none
  | .node other => if other = id then some .model else none
  | .blank | .unknown _ => none

theorem lookup_afterLine (kinds : Kinds) (line : Line) (id : String) :
    (kinds.afterLine line).lookup id =
      if line.edge?.any (·.target = id) then some .model
      else (kinds.lookup id).or (line.kindOf? id) := by
  cases line with
  | blank => simp [Kinds.afterLine, Line.edge?, Line.kindOf?]
  | unknown text => simp [Kinds.afterLine, Line.edge?, Line.kindOf?]
  | node other => simp [Kinds.afterLine, Line.edge?, Line.kindOf?, lookup_meet]
  | edge source target =>
      by_cases hloop : source = target
      · simp [Kinds.afterLine, Line.edge?, Line.kindOf?, hloop]
      · simp only [Kinds.afterLine, Line.edge?, Line.kindOf?, if_neg hloop, lookup_setModel,
          lookup_meet]
        by_cases htarget : target = id <;> simp [htarget]

/-- A line draws an edge if it holds one between different tables. -/
theorem edge?_eq_some_iff {edge : DiagramEdge} {line : Line} :
    line.edge? = some edge ↔ line = .edge edge.source edge.target ∧ edge.source ≠ edge.target := by
  cases line with
  | edge source target =>
      rw [Line.edge?, Option.ite_none_left_eq_some, Option.some.injEq, Line.edge.injEq]
      constructor
      · rintro ⟨hne, rfl⟩
        exact ⟨⟨rfl, rfl⟩, hne⟩
      · rintro ⟨⟨rfl, rfl⟩, hne⟩
        exact ⟨hne, rfl⟩
  | node _ | blank | unknown _ => simp [Line.edge?]

/-- A line that draws an edge mentions its ends. -/
theorem isSome_kindOf?_of_edge? {edge : DiagramEdge} {line : Line} (h : line.edge? = some edge) :
    (line.kindOf? edge.source).isSome = true ∧ (line.kindOf? edge.target).isSome = true := by
  obtain ⟨rfl, hne⟩ := edge?_eq_some_iff.mp h
  simp [Line.kindOf?, hne]

/-- A table is a model if an edge is drawn to it, and otherwise of the kind that the first line
gives to it that mentions it. -/
theorem lookup_foldl_afterLine (lines : List Line) (id : String) :
    (lines.foldl Kinds.afterLine []).lookup id =
      if id ∈ (lines.filterMap Line.edge?).map (·.target) then some .model
      else lines.findSome? (Line.kindOf? id) := by
  induction lines using List.reverseRecOn with
  | nil => rfl
  | append_singleton lines line ih =>
      have hline : id ∈ ([line].filterMap Line.edge?).map (·.target) ↔
          line.edge?.any (·.target = id) = true := by
        cases hedge : line.edge? <;> simp [hedge, eq_comm]
      rw [List.foldl_concat, lookup_afterLine, ih, List.filterMap_append, List.map_append,
        List.findSome?_append]
      simp only [List.mem_append, hline]
      by_cases hlast : line.edge?.any (·.target = id) = true
      · simp [hlast]
      · by_cases hbefore : id ∈ (lines.filterMap Line.edge?).map (·.target)
        · rw [if_neg hlast, if_pos hbefore, if_pos (.inl hbefore), Option.some_or]
        · rw [if_neg hlast, if_neg hbefore, if_neg (not_or.mpr ⟨hbefore, hlast⟩),
            List.findSome?_singleton]

/-! ## Nodes and edges -/

theorem ids_diagramOf (lines : List Line) :
    (diagramOf lines).nodes.map (·.id) =
      Order.ascending ((lines.foldl Kinds.afterLine []).map (·.1)) := by
  -- every id that has a kind yields a node with that id
  have hkey : ∀ id ∈ Order.ascending ((lines.foldl Kinds.afterLine []).map (·.1)),
      (((lines.foldl Kinds.afterLine []).lookup id).map fun kind =>
        (⟨id, id, kind⟩ : DiagramNode)).map (·.id) = some id := by
    intro id hid
    obtain ⟨entry, hentry, rfl⟩ := List.mem_map.mp (Order.mem_ascending.mp hid)
    have hfound : ((lines.foldl Kinds.afterLine []).lookup entry.1).isSome = true :=
      List.lookup_isSome_iff.mpr ⟨entry, hentry, beq_self_eq_true _⟩
    obtain ⟨kind, hkind⟩ := Option.isSome_iff_exists.mp hfound
    rw [hkind]
    rfl
  calc (diagramOf lines).nodes.map (·.id)
      = (Order.ascending ((lines.foldl Kinds.afterLine []).map (·.1))).filterMap fun id =>
          (((lines.foldl Kinds.afterLine []).lookup id).map fun kind =>
            (⟨id, id, kind⟩ : DiagramNode)).map (·.id) := List.map_filterMap
    _ = (Order.ascending ((lines.foldl Kinds.afterLine []).map (·.1))).filterMap some :=
        List.filterMap_congr hkey
    _ = Order.ascending ((lines.foldl Kinds.afterLine []).map (·.1)) := List.filterMap_some

/-- The nodes are named by their ids and have the kinds that were met last. -/
theorem mem_nodes_diagramOf {node : DiagramNode} :
    node ∈ (diagramOf lines).nodes ↔
      (lines.foldl Kinds.afterLine []).lookup node.id = some node.kind ∧ node.name = node.id := by
  rw [diagramOf, List.mem_filterMap]
  constructor
  · rintro ⟨id, -, hnode⟩
    obtain ⟨kind, hkind, rfl⟩ := Option.map_eq_some_iff.mp hnode
    exact ⟨hkind, rfl⟩
  · rintro ⟨hkind, hname⟩
    obtain ⟨entry, hentry, hid⟩ :=
      List.lookup_isSome_iff.mp (Option.isSome_iff_exists.mpr ⟨_, hkind⟩)
    have hkey : node.id ∈ (lines.foldl Kinds.afterLine []).map (·.1) :=
      List.mem_map.mpr ⟨entry, hentry, (beq_iff_eq.mp hid).symm⟩
    have hnode : (⟨node.id, node.id, node.kind⟩ : DiagramNode) =
        ⟨node.id, node.name, node.kind⟩ := by
      rw [hname]
    exact ⟨node.id, Order.mem_ascending.mpr hkey, by rw [hkind, Option.map_some, hnode]⟩

theorem lookup_of_mem_diagramOf {node : DiagramNode} (h : node ∈ (diagramOf lines).nodes) :
    (lines.foldl Kinds.afterLine []).lookup node.id = some node.kind :=
  (mem_nodes_diagramOf.mp h).1

/-- A table has a kind if a line mentions it. -/
theorem isSome_lookup_iff :
    ((lines.foldl Kinds.afterLine []).lookup id).isSome = true ↔
      ∃ line ∈ lines, (line.kindOf? id).isSome = true := by
  rw [lookup_foldl_afterLine]
  split
  case isTrue htarget =>
      obtain ⟨edge, hedge, rfl⟩ := List.mem_map.mp htarget
      obtain ⟨line, hline, hdrawn⟩ := List.mem_filterMap.mp hedge
      exact iff_of_true rfl ⟨line, hline, (isSome_kindOf?_of_edge? hdrawn).2⟩
  case isFalse => exact List.findSome?_isSome_iff

/-- The nodes are the tables that a line mentions. -/
theorem mem_ids_diagramOf :
    id ∈ (diagramOf lines).nodes.map (·.id) ↔ ∃ line ∈ lines, (line.kindOf? id).isSome = true := by
  have hkeys : id ∈ (lines.foldl Kinds.afterLine []).map (·.1) ↔
      ((lines.foldl Kinds.afterLine []).lookup id).isSome = true := by
    rw [List.lookup_isSome_iff, List.mem_map]
    refine exists_congr fun entry => and_congr_right fun _ => ?_
    rw [beq_iff_eq, eq_comm]
  calc id ∈ (diagramOf lines).nodes.map (·.id)
      ↔ id ∈ (lines.foldl Kinds.afterLine []).map (·.1) := by
        rw [ids_diagramOf, Order.mem_ascending]
    _ ↔ ((lines.foldl Kinds.afterLine []).lookup id).isSome = true := hkeys
    _ ↔ ∃ line ∈ lines, (line.kindOf? id).isSome = true := isSome_lookup_iff

/-- The edges are those that a line draws. -/
theorem mem_edges_diagramOf {edge : DiagramEdge} :
    edge ∈ (diagramOf lines).edges ↔ ∃ line ∈ lines, line.edge? = some edge := by
  rw [diagramOf, Order.mem_ascending, List.mem_filterMap]

end Flowchart

end TableLineage
