import Mathlib.Data.List.Chain
import Mathlib.Data.List.Sort
import TableLineage.Proofs.Graph.Paths

/-!
# Cycles are the groups of tables that depend on each other

Two tables belong together if each has a path to the other (`OnLoop`).  The group of a table is
listed from its ancestors and its descendants, and it is the same list for all tables of the group
(`loopOf_congr_of_onLoop`).  Each group is taken at its first table only, in the order of the ids,
so that no group occurs twice (`mem_cycles_iff`).

A table with a path to itself lies on a cycle in the strict sense, one without repetitions: a path
loses nothing if it is cut where it comes back to its start (`exists_simple_path`).  Without cycles
the tables can be ordered by the number of their ancestors, since along a dependency a table has all
ancestors of the one before it and that one as well (`ancestorCount_lt`).
-/

namespace TableLineage

open Relation (ReflTransGen TransGen)

/-! ## Paths without repetitions -/

section Paths

variable {α : Type} {step : α → α → Prop} {a b : α}

/-- A path can be cut so that no element occurs twice on it. -/
theorem exists_simple_path (hpath : ReflTransGen step a b) :
    ∃ rest, (a :: rest).Nodup ∧ (a :: rest).IsChain step ∧
      (a :: rest).getLast (List.cons_ne_nil a rest) = b := by
  induction hpath using ReflTransGen.head_induction_on with
  | refl => exact ⟨[], List.nodup_singleton b, .singleton b, rfl⟩
  | @head a c hstep _ ih =>
      obtain ⟨rest, hnodup, hchain, hlast⟩ := ih
      by_cases hback : a ∈ c :: rest
      · -- the path comes back to its start, and what is before that is left out
        obtain ⟨loop, after, heq⟩ := List.append_of_mem hback
        rw [heq] at hnodup hchain
        refine ⟨after, hnodup.of_append_right, hchain.right_of_append, ?_⟩
        rw [← hlast]
        simp only [heq, List.getLast_append_of_ne_nil, ne_eq, reduceCtorEq, not_false_eq_true]
      · refine ⟨c :: rest, List.nodup_cons.mpr ⟨hback, hnodup⟩, hchain.cons_cons hstep, ?_⟩
        rw [List.getLast_cons_cons, hlast]

end Paths

namespace LineageGraph

variable {graph : LineageGraph} {a b c id : TableId} {group : List TableId}

/-- Different tables, each of which feeds the next one, and the last one feeds the first. -/
structure IsCycle (graph : LineageGraph) (tables : List TableId) : Prop where
  nodup : tables.Nodup
  closes : ∃ first rest, tables = first :: rest ∧ (tables ++ [first]).IsChain graph.Feeds

/-- A table lies on a cycle just if it has a path to itself. -/
theorem exists_isCycle_iff :
    (∃ tables, graph.IsCycle tables ∧ id ∈ tables) ↔ TransGen graph.Feeds id id := by
  constructor
  · rintro ⟨tables, ⟨-, first, rest, rfl, hchain⟩, hmem⟩
    have hfrom : ∀ table ∈ first :: rest ++ [first], ReflTransGen graph.Feeds first table :=
      hchain.induction _ _ (fun _ _ hstep hpath => hpath.tail hstep) fun _ => .refl
    have hto : ∀ table ∈ first :: rest ++ [first], ReflTransGen graph.Feeds table first := by
      apply hchain.backwards_induction (ReflTransGen graph.Feeds · first) _
        (fun _ _ hstep hpath => hpath.head hstep)
      intro hne
      rw [List.getLast_append_singleton]
    -- the first table feeds the next one, from which a path leads back to it
    have hloop : TransGen graph.Feeds first first := by
      cases rest with
      | nil => exact .single (List.isChain_pair.mp hchain)
      | cons next rest =>
          have hstep : graph.Feeds first next := (List.isChain_cons_cons.mp hchain).1
          exact TransGen.head' hstep (hto next (by simp))
    have hend : id ∈ first :: rest ++ [first] := List.mem_append_left _ hmem
    exact (TransGen.trans_right (hto id hend) hloop).trans_left (hfrom id hend)
  · intro hloop
    obtain ⟨last, hpath, hstep⟩ := TransGen.tail'_iff.mp hloop
    obtain ⟨rest, hnodup, hchain, hlast⟩ := exists_simple_path hpath
    refine ⟨id :: rest, ⟨hnodup, id, rest, rfl, ?_⟩, List.mem_cons_self⟩
    apply hchain.append (.singleton id)
    intro x hx y hy
    rw [List.getLast?_eq_some_getLast (List.cons_ne_nil id rest), hlast, Option.mem_some_iff] at hx
    rw [List.head?_singleton, Option.mem_some_iff] at hy
    rwa [← hx, ← hy]

/-! ## Groups -/

/-- Each of two tables has a path to the other. -/
def OnLoop (graph : LineageGraph) (a b : TableId) : Prop :=
  TransGen graph.Feeds a b ∧ TransGen graph.Feeds b a

theorem OnLoop.symm (h : graph.OnLoop a b) : graph.OnLoop b a :=
  ⟨h.2, h.1⟩

theorem OnLoop.trans (hab : graph.OnLoop a b) (hbc : graph.OnLoop b c) : graph.OnLoop a c :=
  ⟨hab.1.trans hbc.1, hbc.2.trans hab.2⟩

theorem mem_ids_of_onLoop (h : graph.OnLoop a b) : a ∈ graph.ids := by
  obtain ⟨c, hstep, -⟩ := TransGen.head'_iff.mp h.1
  exact (graph.known _ hstep).1

theorem mem_loopOf_iff : b ∈ graph.loopOf a ↔ b = a ∨ graph.OnLoop a b := by
  calc b ∈ graph.loopOf a
      ↔ b = a ∨ b ∈ graph.ancestors a ∧ b ∈ graph.descendants a := by
        rw [loopOf, Order.mem_ascending, List.mem_cons, List.mem_filter, List.contains_iff_mem]
    _ ↔ b = a ∨ graph.OnLoop a b := by
        rw [mem_ancestors_iff, mem_descendants_iff]
        by_cases hb : b = a
        · simp [hb]
        · simp [hb, OnLoop, and_comm]

theorem loopOf_congr_of_onLoop (h : graph.OnLoop a b) : graph.loopOf a = graph.loopOf b := by
  apply Order.eq_of_mem_iff (Order.pairwise_ascending _) (Order.pairwise_ascending _)
  intro c
  change c ∈ graph.loopOf a ↔ c ∈ graph.loopOf b
  rw [mem_loopOf_iff, mem_loopOf_iff]
  constructor
  · rintro (rfl | hc)
    · exact .inr h.symm
    · exact .inr (h.symm.trans hc)
  · rintro (rfl | hc)
    · exact .inr h
    · exact .inr (h.trans hc)

/-- The group of a table has more tables just if the table has a path to itself. -/
theorem one_lt_length_loopOf_iff :
    1 < (graph.loopOf id).length ↔ graph.OnLoop id id := by
  have hnodup : (graph.loopOf id).Nodup :=
    (Order.pairwise_ascending _).imp fun h => ne_of_irrefl h
  constructor
  · intro hlength
    obtain ⟨first, second, rest, hgroup⟩ : ∃ first second rest,
        graph.loopOf id = first :: second :: rest := by
      match hgroup : graph.loopOf id with
      | [] | [_] => simp [hgroup] at hlength
      | first :: second :: rest => exact ⟨first, second, rest, rfl⟩
    rw [hgroup, List.nodup_cons] at hnodup
    -- one of two different tables is not the given one
    obtain ⟨other, hother, hne⟩ : ∃ other ∈ graph.loopOf id, other ≠ id := by
      by_cases hfirst : first = id
      · refine ⟨second, by simp [hgroup], ?_⟩
        rintro rfl
        exact hnodup.1 (by simp [hfirst])
      · exact ⟨first, by simp [hgroup], hfirst⟩
    have hloop := (mem_loopOf_iff.mp hother).resolve_left hne
    exact hloop.trans hloop.symm
  · intro hloop
    obtain ⟨next, hstep, hback⟩ := TransGen.head'_iff.mp hloop.1
    have hne : id ≠ next := (graph.known _ hstep).2.2
    have hnext : next ∈ graph.loopOf id := by
      refine mem_loopOf_iff.mpr (.inr ⟨.single hstep, ?_⟩)
      exact (Relation.reflTransGen_iff_eq_or_transGen.mp hback).resolve_left hne
    have hpair : [id, next] ⊆ graph.loopOf id := by
      intro table htable
      rcases List.mem_pair.mp htable with rfl | rfl
      · exact mem_loopOf_iff.mpr (.inl rfl)
      · exact hnext
    have hsubperm :=
      List.Nodup.subperm (List.nodup_cons.mpr ⟨by simpa using hne, List.nodup_singleton next⟩) hpair
    exact hsubperm.length_le

/-! ## The list of cycles -/

/-- The groups that are listed are those of the tables with a path to themselves. -/
theorem mem_cycles_iff :
    group ∈ graph.cycles ↔ ∃ id, graph.OnLoop id id ∧ graph.loopOf id = group := by
  simp only [cycles, List.mem_filterMap, Order.mem_ascending, Option.ite_none_right_eq_some,
    Option.some.injEq]
  constructor
  · rintro ⟨id, -, ⟨hlength, -⟩, hgroup⟩
    exact ⟨id, one_lt_length_loopOf_iff.mp hlength, hgroup⟩
  · rintro ⟨id, hloop, rfl⟩
    have hmem : id ∈ graph.loopOf id := mem_loopOf_iff.mpr (.inl rfl)
    obtain ⟨first, hfirst⟩ : ∃ first, (graph.loopOf id).head? = some first :=
      ⟨_, List.head?_eq_some_head (List.ne_nil_of_mem hmem)⟩
    -- the group is found at its first table
    have hsame : graph.OnLoop id first := by
      rcases mem_loopOf_iff.mp (List.mem_of_head? hfirst) with rfl | h
      · exact hloop
      · exact h
    have hgroup := loopOf_congr_of_onLoop hsame
    refine ⟨first, mem_ids_of_onLoop hsame.symm, ⟨?_, ?_⟩, hgroup.symm⟩
    · exact one_lt_length_loopOf_iff.mpr (hsame.symm.trans hsame)
    · rw [← hgroup, hfirst]

/-- A listed group is the group of each of its tables, which all have a path to themselves. -/
theorem eq_loopOf_of_mem_cycles (hgroup : group ∈ graph.cycles) (hid : id ∈ group) :
    graph.OnLoop id id ∧ group = graph.loopOf id := by
  obtain ⟨start, hloop, rfl⟩ := mem_cycles_iff.mp hgroup
  have hsame : graph.OnLoop start id := by
    rcases mem_loopOf_iff.mp hid with rfl | h
    · exact hloop
    · exact h
  exact ⟨hsame.symm.trans hsame, loopOf_congr_of_onLoop hsame⟩

/-- The groups are listed by ascending first table. -/
theorem pairwise_cycles (graph : LineageGraph) :
    graph.cycles.Pairwise fun earlier later =>
      ∀ a ∈ earlier.head?, ∀ b ∈ later.head?, a < b := by
  apply (Order.pairwise_ascending graph.ids).filterMap
  intro a b hlt earlier hearlier later hlater
  simp only [Option.ite_none_right_eq_some, Option.some.injEq] at hearlier hlater
  obtain ⟨⟨-, hfirst⟩, rfl⟩ := hearlier
  obtain ⟨⟨-, hfirst'⟩, rfl⟩ := hlater
  intro x hx y hy
  rw [hfirst, Option.mem_some_iff] at hx
  rw [hfirst', Option.mem_some_iff] at hy
  rwa [← hx, ← hy]

theorem disjoint_cycles (graph : LineageGraph) : graph.cycles.Pairwise List.Disjoint := by
  apply (pairwise_cycles graph).imp_of_mem
  intro earlier later hearlier hlater hlt id hid hid'
  obtain ⟨hloop, rfl⟩ := eq_loopOf_of_mem_cycles hearlier hid
  obtain ⟨-, rfl⟩ := eq_loopOf_of_mem_cycles hlater hid'
  obtain ⟨first, hfirst⟩ : ∃ first, (graph.loopOf id).head? = some first :=
    ⟨_, List.head?_eq_some_head (List.ne_nil_of_mem hid)⟩
  exact Std.Irrefl.irrefl first (hlt first hfirst first hfirst)

/-! ## Graphs without cycles -/

/-- An order of the tables in which every dependency goes forward. -/
structure IsForwardOrder (graph : LineageGraph) (order : List TableId) : Prop where
  perm : order.Perm graph.ids
  forward : ∀ d ∈ graph.dependencies, order.idxOf d.source < order.idxOf d.target

/-- The number of tables that a table reads, directly or through others. -/
def ancestorCount (graph : LineageGraph) (id : TableId) : Nat :=
  (Order.ascending (graph.ancestors id)).length

/-- Along a dependency the number of ancestors grows, if the target is on no cycle. -/
theorem ancestorCount_lt (hfeeds : graph.Feeds a b) (hacyclic : ¬ TransGen graph.Feeds b b) :
    graph.ancestorCount a < graph.ancestorCount b := by
  have hnodup : (Order.ascending (graph.ancestors a)).Nodup :=
    (Order.pairwise_ascending _).imp fun h => ne_of_irrefl h
  have hself : a ∉ Order.ascending (graph.ancestors a) := by
    rw [Order.mem_ascending, mem_ancestors_iff]
    exact fun h => h.1 rfl
  -- the source and its ancestors are ancestors of the target
  have hsubset : a :: Order.ascending (graph.ancestors a) ⊆
      Order.ascending (graph.ancestors b) := by
    intro table htable
    rw [List.mem_cons, Order.mem_ascending, mem_ancestors_iff] at htable
    have hpath : TransGen graph.Feeds table b := by
      rcases htable with rfl | ⟨-, hpath⟩
      · exact .single hfeeds
      · exact hpath.tail hfeeds
    rw [Order.mem_ascending, mem_ancestors_iff]
    refine ⟨?_, hpath⟩
    rintro rfl
    exact hacyclic hpath
  exact (List.Nodup.subperm (List.nodup_cons.mpr ⟨hself, hnodup⟩) hsubset).length_le

/-- Without cycles the number of ancestors orders the tables. -/
theorem exists_isForwardOrder (hacyclic : ∀ id, ¬ TransGen graph.Feeds id id) :
    ∃ order, graph.IsForwardOrder order := by
  let before (a b : TableId) : Bool := decide (graph.ancestorCount a ≤ graph.ancestorCount b)
  -- the tables by the number of their ancestors, which grows along every edge
  have hsorted : (graph.ids.mergeSort before).Pairwise fun a b => before a b = true := by
    apply List.pairwise_mergeSort
    · intro a b c hab hbc
      exact decide_eq_true ((of_decide_eq_true hab).trans (of_decide_eq_true hbc))
    · intro a b
      rw [Bool.or_eq_true]
      exact (le_total _ _).imp decide_eq_true decide_eq_true
  have hperm := List.mergeSort_perm graph.ids before
  refine ⟨graph.ids.mergeSort before, hperm, ?_⟩
  intro d hd
  have hlt := ancestorCount_lt hd (hacyclic d.target)
  obtain ⟨hsource, htarget, -⟩ := graph.known d hd
  have hsourceMem := List.idxOf_lt_length_of_mem (hperm.mem_iff.mpr hsource)
  have htargetMem := List.idxOf_lt_length_of_mem (hperm.mem_iff.mpr htarget)
  -- otherwise the target stands before its source or is the same table
  by_contra hle
  rcases (not_lt.mp hle).lt_or_eq with hback | hsame
  · have hcount := List.pairwise_iff_getElem.mp hsorted _ _ htargetMem hsourceMem hback
    rw [List.getElem_idxOf, List.getElem_idxOf] at hcount
    exact absurd (of_decide_eq_true hcount) (not_le.mpr hlt)
  · have heq : d.target = d.source := by
      rw [← List.getElem_idxOf htargetMem, ← List.getElem_idxOf hsourceMem]
      exact getElem_congr_idx hsame
    rw [heq] at hlt
    exact lt_irrefl _ hlt

/-- In a forward order a path leads forward. -/
theorem IsForwardOrder.lt_of_path {order : List TableId} (h : graph.IsForwardOrder order)
    (hpath : TransGen graph.Feeds a b) : order.idxOf a < order.idxOf b := by
  induction hpath with
  | single hstep => exact h.forward _ hstep
  | tail _ hstep ih => exact ih.trans (h.forward _ hstep)

theorem cycles_eq_nil_iff : graph.cycles = [] ↔ ∃ order, graph.IsForwardOrder order := by
  constructor
  · intro hnone
    apply exists_isForwardOrder
    intro id hloop
    have hmem : graph.loopOf id ∈ graph.cycles := mem_cycles_iff.mpr ⟨id, ⟨hloop, hloop⟩, rfl⟩
    rw [hnone] at hmem
    cases hmem
  · rintro ⟨order, horder⟩
    apply List.eq_nil_iff_forall_not_mem.mpr
    intro group hgroup
    obtain ⟨id, hloop, -⟩ := mem_cycles_iff.mp hgroup
    exact lt_irrefl _ (horder.lt_of_path hloop.1)

/-! ## The theorem -/

/-- A table of the graph is listed among the reads of another just if it has a path to it. -/
theorem isListed_reads_iff :
    IsListed a (graph.reads b.value) ↔ a ≠ b ∧ TransGen graph.Feeds a b := by
  rw [(isListing_reads graph b.value).isListed_iff fun _ hpath => (known_of_hasPath hpath).2,
    hasPath_iff, ne_eq, TableId.value_inj]

end LineageGraph

/-- **The cycles are the groups of tables that depend on each other.**  In every graph two tables
are in one listed group just if each is among the reads of the other, and the tables of the groups
are those that lie on a cycle.  No table is in two groups, each group has two tables or more in
ascending order, and the groups are in the order of their first tables.  None is listed just if the
tables can be ordered so that every dependency goes forward. -/
theorem cycles_are_strong_components (graph : LineageGraph) :
    (∀ a b : TableId, a ≠ b → ((∃ group ∈ graph.cycles, a ∈ group ∧ b ∈ group) ↔
      IsListed a (graph.reads b.value) ∧ IsListed b (graph.reads a.value))) ∧
    (∀ id, (∃ group ∈ graph.cycles, id ∈ group) ↔ ∃ tables, graph.IsCycle tables ∧ id ∈ tables) ∧
    graph.cycles.Pairwise List.Disjoint ∧
    (∀ group ∈ graph.cycles, 2 ≤ group.length ∧ group.Pairwise (· < ·)) ∧
    (graph.cycles.Pairwise fun earlier later =>
      ∀ a ∈ earlier.head?, ∀ b ∈ later.head?, a < b) ∧
    (graph.cycles = [] ↔ ∃ order, graph.IsForwardOrder order) := by
  refine ⟨?_, ?_, graph.disjoint_cycles, ?_, graph.pairwise_cycles,
    LineageGraph.cycles_eq_nil_iff⟩
  · intro a b hne
    rw [LineageGraph.isListed_reads_iff, LineageGraph.isListed_reads_iff]
    constructor
    · rintro ⟨group, hgroup, ha, hb⟩
      obtain ⟨-, rfl⟩ := LineageGraph.eq_loopOf_of_mem_cycles hgroup ha
      have hloop := (LineageGraph.mem_loopOf_iff.mp hb).resolve_left hne.symm
      exact ⟨⟨hne, hloop.1⟩, hne.symm, hloop.2⟩
    · rintro ⟨⟨-, hab⟩, -, hba⟩
      refine ⟨graph.loopOf a, LineageGraph.mem_cycles_iff.mpr ⟨a, ?_, rfl⟩,
        LineageGraph.mem_loopOf_iff.mpr (.inl rfl),
          LineageGraph.mem_loopOf_iff.mpr (.inr ⟨hab, hba⟩)⟩
      exact ⟨hab.trans hba, hab.trans hba⟩
  · intro id
    rw [LineageGraph.exists_isCycle_iff]
    constructor
    · rintro ⟨group, hgroup, hid⟩
      exact (LineageGraph.eq_loopOf_of_mem_cycles hgroup hid).1.1
    · intro hloop
      exact ⟨graph.loopOf id, LineageGraph.mem_cycles_iff.mpr ⟨id, ⟨hloop, hloop⟩, rfl⟩,
        LineageGraph.mem_loopOf_iff.mpr (.inl rfl)⟩
  · intro group hgroup
    obtain ⟨id, hloop, rfl⟩ := LineageGraph.mem_cycles_iff.mp hgroup
    exact ⟨LineageGraph.one_lt_length_loopOf_iff.mpr hloop, Order.pairwise_ascending _⟩

/-- Two loops, one of which feeds the other. -/
def twoLoops : LineageGraph :=
  let table (name : String) (h : name ≠ "") : GraphCall := .addModel ⟨name, h⟩ ""
  (LineageGraph.run [table "s" (by decide), table "q" (by decide), table "r" (by decide),
    table "p" (by decide), .addDependency "p" "q", .addDependency "q" "p", .addDependency "q" "r",
    .addDependency "r" "s", .addDependency "s" "r"]).1

/-- A loop that is fed by another one is a group of its own, and no order makes all dependencies go
forward. -/
theorem cycles_of_twoLoops :
    twoLoops.cycles.map (·.map (·.value)) = [["p", "q"], ["r", "s"]] ∧
      (∃ tables, twoLoops.IsCycle tables ∧ (⟨"r", by decide⟩ : TableId) ∈ tables) ∧
      ¬ ∃ order, twoLoops.IsForwardOrder order := by
  have hcycles : twoLoops.cycles.map (·.map (·.value)) = [["p", "q"], ["r", "s"]] := by cbv
  obtain ⟨-, honCycle, -, -, -, hforward⟩ := cycles_are_strong_components twoLoops
  refine ⟨hcycles, (honCycle _).mp ?_, ?_⟩
  · have hlisted : ["r", "s"] ∈ twoLoops.cycles.map (·.map (·.value)) := by
      rw [hcycles]
      exact List.mem_cons_of_mem _ List.mem_cons_self
    obtain ⟨group, hgroup, hvalues⟩ := List.mem_map.mp hlisted
    have hmem : "r" ∈ group.map (·.value) := by
      rw [hvalues]
      exact List.mem_cons_self
    obtain ⟨id, hid, hvalue⟩ := List.mem_map.mp hmem
    have heq : id = ⟨"r", by decide⟩ := TableId.ext_value hvalue
    exact ⟨group, hgroup, heq ▸ hid⟩
  · -- a forward order would leave no cycles
    rw [← hforward]
    intro hnone
    rw [hnone] at hcycles
    cases hcycles

end TableLineage
