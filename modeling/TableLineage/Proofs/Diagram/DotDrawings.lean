import Mathlib.Algebra.Ring.Parity
import Mathlib.Data.List.Induction
import TableLineage.Diagram.Dot
import TableLineage.Proofs.Text.Search

/-!
# Graphviz drawings show everything

A drawing determines its diagram: the ids, names and kinds of the nodes and the ends of the edges,
in their order and whatever characters they hold (`drawing_loses_nothing`).

No reader is needed to see this.  A written form is self-delimiting if a text that starts with it
starts with no other one, so that the value and the rest of the text are known.  Text between quotes
is self-delimiting because no quote in it is bare: each stands after an odd number of backslashes,
and an even number of them stands before the quote at the end.  Hence the lines of nodes and of
edges are self-delimiting, and lists of lines are, before any text that cannot start one more line:
lines are indented, and what follows them is a line feed or a brace.
-/

namespace TableLineage

namespace Dot

/-! ## Self-delimiting forms -/

section SelfDelimiting

variable {α : Type} {written : α → List Char}

/-- A text starts with the written form of one value at most. -/
def IsSelfDelimiting (written : α → List Char) : Prop :=
  ∀ ⦃a b rest others⦄, written a ++ rest = written b ++ others → a = b ∧ rest = others

/-- Values are written one after the other, and a text with which no value starts follows them. -/
theorem IsSelfDelimiting.flatMap (h : IsSelfDelimiting written) {as bs : List α}
    {rest others : List Char}
    (hrest : ∀ a tail, written a ++ tail ≠ rest) (hothers : ∀ a tail, written a ++ tail ≠ others)
    (heq : as.flatMap written ++ rest = bs.flatMap written ++ others) :
    as = bs ∧ rest = others := by
  induction as generalizing bs with
  | nil =>
      cases bs with
      | nil => exact ⟨rfl, heq⟩
      | cons b bs =>
          rw [List.flatMap_cons, List.append_assoc] at heq
          -- what follows one list would start with an element of the other
          exact absurd heq.symm (hrest b _)
  | cons a as ih =>
      cases bs with
      | nil =>
          rw [List.flatMap_cons, List.append_assoc] at heq
          exact absurd heq (hothers a _)
      | cons b bs =>
          rw [List.flatMap_cons, List.flatMap_cons, List.append_assoc, List.append_assoc] at heq
          obtain ⟨rfl, htail⟩ := h heq
          obtain ⟨rfl, hend⟩ := ih htail
          exact ⟨rfl, hend⟩

end SelfDelimiting

/-! ## Escaped text -/

/-- What is written for a character between quotes. -/
def escaped (c : Char) : List Char :=
  if c = '\\' ∨ c = '"' then ['\\', c] else [c]

theorem escape_toList (text : String) : (escape text).toList = text.toList.flatMap escaped := by
  rw [escape, String.toList_ofList]
  rfl

/-- The first character that is written tells whether the next one is the character itself. -/
theorem escaped_selfDelimiting : IsSelfDelimiting escaped := by
  intro c d rest others h
  unfold escaped at h
  split_ifs at h with hc hd hd
  · simpa using h
  · obtain ⟨rfl, -⟩ := List.cons.inj h
    exact absurd (.inl rfl) hd
  · obtain ⟨rfl, -⟩ := List.cons.inj h
    exact absurd (.inl rfl) hc
  · simpa using h

theorem escaped_ne_quote (c : Char) (tail rest : List Char) : escaped c ++ tail ≠ '"' :: rest := by
  intro h
  unfold escaped at h
  split_ifs at h with hc
  · simp at h
  · obtain ⟨rfl, -⟩ := List.cons.inj h
    exact hc (.inr rfl)

theorem eq_backslash_of_escaped {c : Char} {before after : List Char}
    (h : escaped c = before ++ '"' :: after) : before = ['\\'] := by
  cases before with
  | nil => exact absurd ((List.append_nil _).trans h) (escaped_ne_quote c [] after)
  | cons d before =>
      unfold escaped at h
      split_ifs at h
      · obtain ⟨rfl, htail⟩ := List.cons.inj h
        cases before with
        | nil => rfl
        | cons e before => simp at htail
      · simp at h

/-- Backslashes are doubled first, and a backslash is put before every quote then. -/
theorem escape_eq_replaceAll (text : String) :
    escape text = Text.replaceAll "\"" "\\\"" (Text.replaceAll "\\" "\\\\" text) := by
  have hchar : ∀ c : Char, ((if c = '\\' then ['\\', '\\'] else [c]).flatMap fun d =>
      if d = '"' then ['\\', '"'] else [d]) = escaped c := by
    intro c
    by_cases hslash : c = '\\'
    · subst hslash
      rfl
    · by_cases hquote : c = '"'
      · subst hquote
        rfl
      · simp [escaped, hslash, hquote]
  rw [← String.toList_inj, escape_toList, Text.replaceAll, Text.replaceAll]
  simp [Text.replaceFrom_singleton, List.flatMap_assoc, hchar]

/-- The number of backslashes at the end of a text. -/
def endBackslashes (text : List Char) : Nat :=
  (text.reverse.takeWhile (· == '\\')).length

theorem endBackslashes_concat (text : List Char) (c : Char) :
    endBackslashes (text ++ [c]) = if c = '\\' then endBackslashes text + 1 else 0 := by
  by_cases hc : c = '\\' <;> simp [endBackslashes, hc]

/-- Backslashes at the end of escaped text come in pairs. -/
theorem even_endBackslashes (text : List Char) : Even (endBackslashes (text.flatMap escaped)) := by
  induction text using List.reverseRecOn with
  | nil => exact Even.zero
  | append_singleton text c ih =>
      rw [List.flatMap_append, List.flatMap_singleton, escaped]
      split
      case isTrue h =>
          rw [← List.singleton_append, ← List.append_assoc, endBackslashes_concat,
            endBackslashes_concat]
          rcases h with rfl | rfl
          · exact ih.add even_two
          · exact Even.zero
      case isFalse h =>
          rw [not_or] at h
          rw [endBackslashes_concat, if_neg h.1]
          exact Even.zero

/-- A quote in escaped text stands after an odd number of backslashes. -/
theorem odd_endBackslashes {text before after : List Char}
    (h : text.flatMap escaped = before ++ '"' :: after) : Odd (endBackslashes before) := by
  induction text using List.reverseRecOn generalizing after with
  | nil => simp at h
  | append_singleton text c ih =>
      rw [List.flatMap_append, List.flatMap_singleton, List.append_eq_append_iff] at h
      rcases h with ⟨rest, hbefore, hc⟩ | ⟨rest, htext, hc⟩
      · -- the quote is written for the last character, with a backslash before it
        have hrest : rest = ['\\'] := eq_backslash_of_escaped hc
        rw [hbefore, hrest, endBackslashes_concat, if_pos rfl]
        exact (even_endBackslashes text).add_one
      · cases rest with
        | nil =>
            have hstart : escaped c ++ [] = '"' :: after := by rw [List.append_nil]; exact hc.symm
            exact absurd hstart (escaped_ne_quote c [] after)
        | cons d rest =>
            obtain ⟨rfl, -⟩ := List.cons.inj hc
            exact ih htext

/-- Escaped text ends at the first quote that does not belong to a character. -/
theorem escape_selfDelimiting : IsSelfDelimiting fun text : List Char =>
    text.flatMap escaped ++ ['"'] := by
  intro s t rest others h
  rw [List.append_assoc, List.append_assoc] at h
  obtain ⟨htext, hrest⟩ := escaped_selfDelimiting.flatMap (escaped_ne_quote · · rest)
    (escaped_ne_quote · · others) h
  exact ⟨htext, (List.cons.inj hrest).2⟩

theorem quoted_toList (text : String) :
    (quoted text).toList = '"' :: (text.toList.flatMap escaped ++ ['"']) := by
  simp [quoted, escape_toList]

theorem quoted_selfDelimiting : IsSelfDelimiting fun text => (quoted text).toList := by
  intro s t rest others h
  simp only [quoted_toList, List.cons_append, List.cons.injEq, true_and] at h
  obtain ⟨htext, hrest⟩ := escape_selfDelimiting h
  exact ⟨String.toList_inj.mp htext, hrest⟩

/-! ## Lines -/

theorem nodeLine_toList (node : DiagramNode) (rest : List Char) :
    (nodeLine node).toList ++ rest =
      "    ".toList ++
        ((quoted node.id).toList ++ (" [label=".toList ++ ((quoted node.name).toList ++
        (" fillcolor=\"".toList ++
          ((colour node.kind).toList ++ ("\"];\n".toList ++ rest)))))) := by
  simp [nodeLine]

theorem edgeLine_toList (edge : DiagramEdge) (rest : List Char) :
    (edgeLine edge).toList ++ rest =
      "    ".toList ++
        ((quoted edge.source).toList ++ (" -> ".toList ++ ((quoted edge.target).toList ++
        (";\n".toList ++ rest)))) := by
  simp [edgeLine]

theorem colour_selfDelimiting : IsSelfDelimiting fun kind => (colour kind).toList := by
  intro a b rest others h
  cases a <;> cases b <;> simp_all [colour]

theorem nodeLine_selfDelimiting : IsSelfDelimiting fun node => (nodeLine node).toList := by
  intro node other rest others h
  simp only [nodeLine_toList] at h
  obtain ⟨hid, h⟩ := quoted_selfDelimiting (List.append_cancel_left h)
  obtain ⟨hname, h⟩ := quoted_selfDelimiting (List.append_cancel_left h)
  obtain ⟨hkind, h⟩ := colour_selfDelimiting (List.append_cancel_left h)
  refine ⟨?_, List.append_cancel_left h⟩
  cases node
  cases other
  simp_all

theorem edgeLine_selfDelimiting : IsSelfDelimiting fun edge => (edgeLine edge).toList := by
  intro edge other rest others h
  simp only [edgeLine_toList] at h
  obtain ⟨hsource, h⟩ := quoted_selfDelimiting (List.append_cancel_left h)
  obtain ⟨htarget, h⟩ := quoted_selfDelimiting (List.append_cancel_left h)
  refine ⟨?_, List.append_cancel_left h⟩
  cases edge
  cases other
  simp_all

/-! ## Drawings -/

/-- What stands after the lines of the nodes. -/
def afterNodes (edges : List DiagramEdge) : List Char :=
  (if edges.isEmpty then [] else ['\n']) ++
    (edges.flatMap (fun edge => (edgeLine edge).toList) ++ "\x7d\n".toList)

theorem toDot_toList (diagram : Diagram) :
    diagram.toDot.toList =
      "digraph lineage \x7b\n    rankdir=LR;\n    node [shape=box, style=filled];\n\n".toList ++
        (diagram.nodes.flatMap (fun node => (nodeLine node).toList) ++
          afterNodes diagram.edges) := by
  have hfeed : (if diagram.edges.isEmpty then "" else "\n").toList =
      if diagram.edges.isEmpty then [] else ['\n'] := by
    split <;> simp
  have hnodes : (String.join (diagram.nodes.map nodeLine)).toList =
      diagram.nodes.flatMap fun node => (nodeLine node).toList := by
    rw [String.toList_join, List.flatMap_map]
  have hedges : (String.join (diagram.edges.map edgeLine)).toList =
      diagram.edges.flatMap fun edge => (edgeLine edge).toList := by
    rw [String.toList_join, List.flatMap_map]
  unfold Diagram.toDot afterNodes
  simp only [String.toList_append, hnodes, hedges, hfeed, List.append_assoc]

/-- The lines of nodes are indented, and what stands after them is not. -/
theorem nodeLine_ne_afterNodes (edges : List DiagramEdge) (node : DiagramNode) (tail : List Char) :
    (nodeLine node).toList ++ tail ≠ afterNodes edges := by
  intro h
  have hhead := congrArg List.head? h
  cases edges <;> simp [nodeLine_toList, afterNodes] at hhead

theorem edgeLine_ne_brace (edge : DiagramEdge) (tail : List Char) :
    (edgeLine edge).toList ++ tail ≠ "\x7d\n".toList := by
  intro h
  have hhead := congrArg List.head? h
  simp [edgeLine_toList] at hhead

theorem afterNodes_injective : Function.Injective afterNodes := by
  intro edges others h
  have hempty : edges.isEmpty = others.isEmpty := by
    have hhead := congrArg List.head? h
    cases edges <;> cases others <;> simp [afterNodes, edgeLine_toList] at hhead ⊢
  rw [afterNodes, afterNodes, hempty] at h
  exact (edgeLine_selfDelimiting.flatMap edgeLine_ne_brace edgeLine_ne_brace
    (List.append_cancel_left h)).1

/-- **A drawing loses nothing.**  Different diagrams have different drawings.  Every quote in
escaped text stands after an odd number of backslashes, and an even number of them stands before the
quote that ends it; escaping is the replacement of backslashes and then of quotes. -/
theorem drawing_loses_nothing :
    Function.Injective Diagram.toDot ∧
      ∀ text : String,
        (∀ before after, (escape text).toList = before ++ '"' :: after →
          Odd (endBackslashes before)) ∧
        Even (endBackslashes (escape text).toList) ∧
        escape text = Text.replaceAll "\"" "\\\"" (Text.replaceAll "\\" "\\\\" text) := by
  refine ⟨?_, fun text => ⟨fun before after h => ?_, ?_, escape_eq_replaceAll text⟩⟩
  · intro diagram other h
    have hlines := congrArg String.toList h
    rw [toDot_toList, toDot_toList] at hlines
    -- the lines of the nodes tell their own end, then those of the edges do
    obtain ⟨hnodes, hafter⟩ :=
      nodeLine_selfDelimiting.flatMap (nodeLine_ne_afterNodes diagram.edges)
      (nodeLine_ne_afterNodes other.edges) (List.append_cancel_left hlines)
    cases diagram
    cases other
    simp only at hnodes hafter
    rw [hnodes, afterNodes_injective hafter]
  · rw [escape_toList] at h
    exact odd_endBackslashes h
  · rw [escape_toList]
    exact even_endBackslashes text.toList

/-- A label that looks like the end of a line, in the place of two nodes. -/
theorem drawing_of_quoted_line :
    let tricky := "a\" [label=\"b\\"
    let one : Diagram := ⟨[⟨tricky, "c", .model⟩], []⟩
    let two : Diagram := ⟨[⟨"a", "b\\", .model⟩, ⟨"", "c", .model⟩], []⟩
    one.toDot ≠ two.toDot ∧ Odd (endBackslashes "a\\".toList) ∧
      Even (endBackslashes (escape tricky).toList) := by
  intro tricky one two
  have hdiffer : one ≠ two := by decide
  have hescaped : (escape tricky).toList = "a\\".toList ++ '"' :: " [label=\\\"b\\\\".toList := by
    decide
  obtain ⟨hinjective, htext⟩ := drawing_loses_nothing
  exact ⟨fun h => hdiffer (hinjective h), (htext tricky).1 _ _ hescaped, (htext tricky).2.1⟩

end Dot

end TableLineage
