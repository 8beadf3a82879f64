import Mathlib.Data.List.Perm.Basic
import TableLineage.Proofs.Diagram.DrawnLines
import TableLineage.Proofs.Text.Search

/-!
# Lines in another order

The ids and the edges that lines draw are sets, so their order does not matter.  Kinds are inferred
line by line.  A table is a model if an edge leads to it, in whatever place; otherwise the first
line that mentions it decides, and then it makes a difference which lines those are:

* only edges that lead away from it: it is a source;
* only lines of its own: it is a model;
* both: it is contested, and a model if a line of its own is the first (`model_iff`).

So the diagrams of the same lines in two orders are equal if and only if the contested tables are
met in the same way, and a text draws the same diagram for every order of its lines if and only if
no table is contested (`diagrams_of_reordered_lines`).
-/

namespace TableLineage

namespace Flowchart

variable {id : String} {line : Line} {lines others : List Line}

/-! ## What lines say about a table -/

/-- A line draws an edge that leads away from a table. -/
def Line.LeadsFrom (id : String) (line : Line) : Prop :=
  ∃ edge ∈ line.edge?, edge.source = id

/-- A line draws an edge that leads to a table. -/
def Line.LeadsTo (id : String) (line : Line) : Prop :=
  ∃ edge ∈ line.edge?, edge.target = id

instance : Decidable (line.LeadsFrom id) :=
  inferInstanceAs (Decidable (∃ edge ∈ line.edge?, edge.source = id))

instance : Decidable (line.LeadsTo id) :=
  inferInstanceAs (Decidable (∃ edge ∈ line.edge?, edge.target = id))

theorem kindOf?_eq_source_iff : line.kindOf? id = some .source ↔ line.LeadsFrom id := by
  cases line with
  | edge source target =>
      by_cases hloop : source = target
      · simp [Line.kindOf?, Line.LeadsFrom, Line.edge?, hloop]
      · by_cases hsource : source = id <;>
          simp [Line.kindOf?, Line.LeadsFrom, Line.edge?, hloop, hsource]
  | node other => simp [Line.kindOf?, Line.LeadsFrom, Line.edge?]
  | blank => simp [Line.kindOf?, Line.LeadsFrom, Line.edge?]
  | unknown text => simp [Line.kindOf?, Line.LeadsFrom, Line.edge?]

theorem kindOf?_eq_model_iff :
    line.kindOf? id = some .model ↔ line = .node id ∨ line.LeadsTo id := by
  cases line with
  | edge source target =>
      by_cases hloop : source = target
      · simp [Line.kindOf?, Line.LeadsTo, Line.edge?, hloop]
      · by_cases htarget : target = id
        · subst htarget
          simp [Line.kindOf?, Line.LeadsTo, Line.edge?, hloop]
        · simp [Line.kindOf?, Line.LeadsTo, Line.edge?, hloop, htarget]
  | node other => simp [Line.kindOf?, Line.LeadsTo, Line.edge?]
  | blank => simp [Line.kindOf?, Line.LeadsTo, Line.edge?]
  | unknown text => simp [Line.kindOf?, Line.LeadsTo, Line.edge?]

/-- A table stands on a line of its own, before all edges that lead away from it. -/
def IsAloneFirst (id : String) (lines : List Line) : Prop :=
  ∃ before after, lines = before ++ .node id :: after ∧ ∀ line ∈ before, ¬ line.LeadsFrom id

/-- A table stands on a line of its own and edges lead away from it, but none leads to it. -/
structure IsContested (id : String) (lines : List Line) : Prop where
  alone : .node id ∈ lines
  leadsFrom : ∃ line ∈ lines, line.LeadsFrom id
  notLeadsTo : ∀ line ∈ lines, ¬ line.LeadsTo id

/-! ## Kinds -/

/-- To which no edge leads, that is a model by a line of its own. -/
theorem findSome?_eq_model_iff (hto : ∀ line ∈ lines, ¬ line.LeadsTo id) :
    lines.findSome? (Line.kindOf? id) = some .model ↔ IsAloneFirst id lines := by
  constructor
  · intro h
    -- the first line that gives a kind must be the table alone, since no edge leads to it
    obtain ⟨before, line, after, rfl, hkind, hbefore⟩ := List.findSome?_eq_some_iff.mp h
    rcases kindOf?_eq_model_iff.mp hkind with rfl | hleads
    · refine ⟨before, after, rfl, fun other hother hfrom => ?_⟩
      have hsource := kindOf?_eq_source_iff.mpr hfrom
      rw [hbefore other hother] at hsource
      cases hsource
    · exact absurd hleads (hto line (by simp))
  · rintro ⟨before, after, rfl, hbefore⟩
    -- no line before it can give the kind of a source
    rw [List.findSome?_append]
    cases hfound : before.findSome? (Line.kindOf? id) with
    | none => simp [Line.kindOf?]
    | some kind =>
        obtain ⟨line, hline, hkind⟩ := List.exists_of_findSome?_eq_some hfound
        cases kind with
        | source => exact absurd (kindOf?_eq_source_iff.mp hkind) (hbefore line hline)
        | model => rfl

theorem exists_leadsTo_iff :
    (∃ line ∈ lines, line.LeadsTo id) ↔ ∃ edge ∈ (diagramOf lines).edges, edge.target = id := by
  simp only [Line.LeadsTo, mem_edges_diagramOf]
  constructor
  · rintro ⟨line, hline, edge, hedge, htarget⟩
    exact ⟨edge, ⟨line, hline, hedge⟩, htarget⟩
  · rintro ⟨edge, ⟨line, hline, hedge⟩, htarget⟩
    exact ⟨line, hline, edge, hedge, htarget⟩

/-- A table is a model if an edge leads to it, or if it is met on a line of its own first. -/
theorem lookup_eq_model_iff :
    (lines.foldl Kinds.afterLine []).lookup id = some .model ↔
      (∃ line ∈ lines, line.LeadsTo id) ∨ IsAloneFirst id lines := by
  have htargets : id ∈ (lines.filterMap Line.edge?).map (·.target) ↔
      ∃ line ∈ lines, line.LeadsTo id := by
    rw [exists_leadsTo_iff, List.mem_map, diagramOf]
    simp only [Order.mem_ascending]
  rw [lookup_foldl_afterLine]
  split
  case isTrue hto => exact iff_of_true rfl (.inl (htargets.mp hto))
  case isFalse hto =>
      rw [htargets] at hto
      rw [or_iff_right hto]
      exact findSome?_eq_model_iff fun line hline hleads => hto ⟨line, hline, hleads⟩

theorem model_iff {node : DiagramNode} (h : node ∈ (diagramOf lines).nodes) :
    node.kind = .model ↔ (∃ line ∈ lines, line.LeadsTo node.id) ∨ IsAloneFirst node.id lines := by
  rw [← lookup_eq_model_iff, lookup_of_mem_diagramOf h, Option.some.injEq]

/-- Where edges only lead away from a table or it stands on lines of its own only, the first such
line does not matter. -/
theorem isAloneFirst_iff_mem (hto : ∀ line ∈ lines, ¬ line.LeadsTo id)
    (h : ¬ IsContested id lines) :
    IsAloneFirst id lines ↔ .node id ∈ lines := by
  constructor
  · rintro ⟨before, after, rfl, -⟩
    simp
  · intro halone
    obtain ⟨before, after, rfl⟩ := List.append_of_mem halone
    exact ⟨before, after, rfl, fun line hline hfrom =>
      h ⟨halone, ⟨line, List.mem_append_left _ hline, hfrom⟩, hto⟩⟩

theorem isAloneFirst_cons (id : String) (lines : List Line) : IsAloneFirst id (.node id :: lines) :=
  ⟨[], lines, rfl, by simp⟩

theorem not_isAloneFirst_cons (h : line.LeadsFrom id) : ¬ IsAloneFirst id (line :: lines) := by
  rintro ⟨before, after, heq, hbefore⟩
  cases before with
  | nil =>
      obtain ⟨rfl, -⟩ := List.cons.inj heq
      obtain ⟨edge, hedge, -⟩ := h
      cases hedge
  | cons first before =>
      obtain ⟨rfl, -⟩ := List.cons.inj heq
      exact hbefore line List.mem_cons_self h

/-! ## Diagrams of the same lines -/

section Reordered

variable (hperm : lines.Perm others)
include hperm

theorem IsContested.perm (h : IsContested id lines) : IsContested id others where
  alone := hperm.mem_iff.mp h.alone
  leadsFrom := by
    obtain ⟨line, hline, hfrom⟩ := h.leadsFrom
    exact ⟨line, hperm.mem_iff.mp hline, hfrom⟩
  notLeadsTo line hline := h.notLeadsTo line (hperm.mem_iff.mpr hline)

theorem ids_diagramOf_perm :
    (diagramOf lines).nodes.map (·.id) = (diagramOf others).nodes.map (·.id) := by
  have hascending : ∀ lines, ((diagramOf lines).nodes.map (·.id)).Pairwise (· < ·) := by
    intro lines
    rw [ids_diagramOf]
    exact Order.pairwise_ascending _
  apply Order.eq_of_mem_iff (hascending lines) (hascending others)
  intro id
  rw [mem_ids_diagramOf, mem_ids_diagramOf]
  simp only [hperm.mem_iff]

theorem edges_diagramOf_perm : (diagramOf lines).edges = (diagramOf others).edges :=
  Order.ascending_congr fun _ => (hperm.filterMap Line.edge?).mem_iff

/-- Kinds are the same in both orders, but for a contested table that is met in different ways. -/
theorem lookup_perm
    (hmet : IsContested id lines → (IsAloneFirst id lines ↔ IsAloneFirst id others)) :
    (lines.foldl Kinds.afterLine []).lookup id = (others.foldl Kinds.afterLine []).lookup id := by
  have hsome : ((lines.foldl Kinds.afterLine []).lookup id).isSome = true ↔
      ((others.foldl Kinds.afterLine []).lookup id).isSome = true := by
    rw [isSome_lookup_iff, isSome_lookup_iff]
    simp only [hperm.mem_iff]
  have hmodel : (lines.foldl Kinds.afterLine []).lookup id = some .model ↔
      (others.foldl Kinds.afterLine []).lookup id = some .model := by
    rw [lookup_eq_model_iff, lookup_eq_model_iff]
    simp only [← hperm.mem_iff]
    by_cases hto : ∃ line ∈ lines, line.LeadsTo id
    · exact iff_of_true (.inl hto) (.inl hto)
    · rw [or_iff_right hto, or_iff_right hto]
      by_cases hcontested : IsContested id lines
      · exact hmet hcontested
      · push Not at hto
        have hto' : ∀ line ∈ others, ¬ line.LeadsTo id := fun line hline =>
          hto line (hperm.mem_iff.mpr hline)
        rw [isAloneFirst_iff_mem hto hcontested,
          isAloneFirst_iff_mem hto' (mt (IsContested.perm hperm.symm) hcontested), hperm.mem_iff]
  -- a kind is one of two
  generalize (lines.foldl Kinds.afterLine []).lookup id = kind at hsome hmodel ⊢
  generalize (others.foldl Kinds.afterLine []).lookup id = other at hsome hmodel ⊢
  rcases kind with _ | _ | _ <;> rcases other with _ | _ | _ <;> simp_all

theorem diagramOf_perm
    (hmet : ∀ id, IsContested id lines → (IsAloneFirst id lines ↔ IsAloneFirst id others)) :
    diagramOf lines = diagramOf others := by
  have hids := ids_diagramOf_perm hperm
  rw [ids_diagramOf, ids_diagramOf] at hids
  have hedges := edges_diagramOf_perm hperm
  have hlookup := fun id => lookup_perm hperm (hmet id)
  simp only [diagramOf, Diagram.mk.injEq] at hedges ⊢
  rw [hids]
  simp only [hlookup]
  exact ⟨trivial, hedges⟩

/-- The kind of a contested table tells how it is met. -/
theorem isAloneFirst_iff_of_diagramOf_eq (h : diagramOf lines = diagramOf others)
    (hcontested : IsContested id lines) : IsAloneFirst id lines ↔ IsAloneFirst id others := by
  have hmention : ∃ line ∈ lines, (line.kindOf? id).isSome = true :=
    ⟨.node id, hcontested.alone, by simp [Line.kindOf?]⟩
  obtain ⟨node, hnode, rfl⟩ := List.mem_map.mp (mem_ids_diagramOf.mpr hmention)
  have hto : ∀ lines, IsContested node.id lines → ¬ ∃ line ∈ lines, line.LeadsTo node.id := by
    rintro lines hcontested ⟨line, hline, hleads⟩
    exact hcontested.notLeadsTo line hline hleads
  calc IsAloneFirst node.id lines
      ↔ node.kind = .model := by rw [model_iff hnode, or_iff_right (hto lines hcontested)]
    _ ↔ IsAloneFirst node.id others := by
        rw [model_iff (h ▸ hnode), or_iff_right (hto others (hcontested.perm hperm))]

end Reordered

/-! ## Texts of the same lines -/

/-- A text with given lines. -/
def textOfLines (written : List (List Char)) : String :=
  String.ofList (written.flatMap (· ++ ['\r', '\n']))

theorem readLines_perm {text other : String}
    (h : (Text.lines other.toList).Perm (Text.lines text.toList)) :
    (readLines other).Perm (readLines text) :=
  h.map Line.ofText

/-- Every line of a text can be the first. -/
theorem exists_reordered {text : String} {line : Line} (h : line ∈ readLines text) :
    ∃ other rest, (Text.lines other.toList).Perm (Text.lines text.toList) ∧
      readLines other = line :: rest := by
  obtain ⟨written, hwritten, rfl⟩ := List.mem_map.mp h
  have hfeed : ∀ line ∈ written :: (Text.lines text.toList).erase written, '\n' ∉ line := by
    intro line hline
    rcases List.mem_cons.mp hline with rfl | hline
    · exact Text.lineFeed_notMem_of_mem_lines hwritten
    · exact Text.lineFeed_notMem_of_mem_lines (List.mem_of_mem_erase hline)
  have hlines :
      Text.lines (textOfLines (written :: (Text.lines text.toList).erase written)).toList =
      written :: (Text.lines text.toList).erase written := by
    rw [textOfLines, String.toList_ofList, Text.lines_flatMap_return hfeed]
  refine ⟨textOfLines (written :: (Text.lines text.toList).erase written),
    ((Text.lines text.toList).erase written).map Line.ofText, ?_, ?_⟩
  · rw [hlines]
    exact (List.perm_cons_erase hwritten).symm
  · rw [readLines, hlines, List.map_cons]

/-- **Kinds and the order of lines.**  A text whose lines are those of another in another order
draws the same ids and the same edges, and the same kinds of all tables that are not contested.  It
draws the same diagram if and only if each contested table is met on a line of its own first in both
texts or in none.  So the order does not matter for the texts without contested tables, and for
these only.  The kind of a table is a model if an edge leads to it or if it is met on a line of its
own first. -/
theorem diagrams_of_reordered_lines (text : String) :
    (∀ other : String, (Text.lines other.toList).Perm (Text.lines text.toList) →
      (parse other).nodes.map (·.id) = (parse text).nodes.map (·.id) ∧
      (parse other).edges = (parse text).edges ∧
      (∀ node ∈ (parse text).nodes, ¬ IsContested node.id (readLines text) →
        node ∈ (parse other).nodes) ∧
      (parse other = parse text ↔ ∀ id, IsContested id (readLines text) →
        (IsAloneFirst id (readLines other) ↔ IsAloneFirst id (readLines text)))) ∧
    ((∀ other : String, (Text.lines other.toList).Perm (Text.lines text.toList) →
      parse other = parse text) ↔ ∀ id, ¬ IsContested id (readLines text)) ∧
    ∀ node ∈ (parse text).nodes, node.kind = .model ↔
      (∃ edge ∈ (parse text).edges, edge.target = node.id) ∨
      IsAloneFirst node.id (readLines text) := by
  have hsame : ∀ other : String, (Text.lines other.toList).Perm (Text.lines text.toList) →
      (parse other = parse text ↔ ∀ id, IsContested id (readLines text) →
        (IsAloneFirst id (readLines other) ↔ IsAloneFirst id (readLines text))) := by
    intro other hlines
    have hperm := (readLines_perm hlines).symm
    constructor
    · intro heq id hcontested
      exact (isAloneFirst_iff_of_diagramOf_eq hperm heq.symm hcontested).symm
    · intro hmet
      exact (diagramOf_perm hperm fun id hcontested => (hmet id hcontested).symm).symm
  refine ⟨fun other hlines => ⟨?_, ?_, ?_, hsame other hlines⟩, ⟨?_, ?_⟩, ?_⟩
  · exact ids_diagramOf_perm (readLines_perm hlines)
  · exact edges_diagramOf_perm (readLines_perm hlines)
  · intro node hnode huncontested
    have hkind := lookup_perm (readLines_perm hlines).symm fun h => absurd h huncontested
    rw [parse, mem_nodes_diagramOf] at hnode ⊢
    rwa [← hkind]
  · intro hall id hcontested
    -- two orders of the lines, one with the table alone first, one with an edge from it first
    obtain ⟨edgeLine, hedgeLine, hfrom⟩ := hcontested.leadsFrom
    obtain ⟨first, firstRest, hfirst, hreadFirst⟩ := exists_reordered hcontested.alone
    obtain ⟨last, lastRest, hlast, hreadLast⟩ := exists_reordered hedgeLine
    have halone : IsAloneFirst id (readLines first) := hreadFirst ▸ isAloneFirst_cons id firstRest
    have hafter : ¬ IsAloneFirst id (readLines last) := hreadLast ▸ not_isAloneFirst_cons hfrom
    have hfirstText := ((hsame first hfirst).mp (hall first hfirst) id hcontested).mp halone
    exact hafter (((hsame last hlast).mp (hall last hlast) id hcontested).mpr hfirstText)
  · intro hnone other hlines
    exact (hsame other hlines).mpr fun id hcontested => absurd hcontested (hnone id)
  · intro node hnode
    rw [model_iff hnode, exists_leadsTo_iff]
    rfl

/-- The same two lines draw a source in one order and a model in the other. -/
theorem diagrams_of_contested_table :
    let before := "a-->b\na"
    let after := "a\na-->b"
    (Text.lines after.toList).Perm (Text.lines before.toList) ∧ parse after ≠ parse before ∧
      (parse after).edges = (parse before).edges := by
  intro before after
  have hlines : (Text.lines after.toList).Perm (Text.lines before.toList) := by decide
  have hcontested : IsContested "a" (readLines before) :=
    ⟨by decide, by decide, by decide⟩
  have hread : readLines before = [.edge "a" "b", .node "a"] ∧
      readLines after = [.node "a", .edge "a" "b"] := by
    decide
  have halone : IsAloneFirst "a" (readLines after) := by
    rw [hread.2]
    exact isAloneFirst_cons "a" _
  have hafter : ¬ IsAloneFirst "a" (readLines before) := by
    rw [hread.1]
    exact not_isAloneFirst_cons (by decide)
  obtain ⟨-, hedges, -, hequal⟩ := (diagrams_of_reordered_lines before).1 after hlines
  exact ⟨hlines, fun h => hafter ((hequal.mp h "a" hcontested).mp halone), hedges⟩

end Flowchart

end TableLineage
