import Mathlib.Logic.Relation
import TableLineage.Graph.Reach
import TableLineage.Proofs.Graph.NodeMap
import TableLineage.Proofs.Order.StrictLists

/-!
# The walk of a graph reaches what paths reach

`explore` takes every element out of the unseen ones when it reaches it, so what it finds later is
reached without that element.  That loses nothing: a path can be cut where it last visits the
element (`exists_path_erase`), and what is left of it starts at a successor.  `mem_explore_iff`
follows by induction on the walk.

In a graph the walk starts at the successors of a table, which itself counts as seen.  So the
ancestors and the descendants of a table are the other tables with a path of dependencies to it and
from it (`mem_ancestors_iff`, `mem_descendants_iff`).  They and the cycles depend on nothing but the
set of dependencies and the set of ids (`cycles_congr`).
-/

namespace TableLineage

open Relation (ReflTransGen TransGen)

/-! ## The walk -/

section Explore

variable {α : Type} {next : α → List α} {unseen todo : List α}

/-- A step of a walk to an element that may be visited. -/
def StepsWithin (next : α → List α) (unseen : List α) (a b : α) : Prop :=
  b ∈ next a ∧ b ∈ unseen

/-- Some element of `todo` that may be visited has a path to `b` on which all may be visited. -/
def IsReached (next : α → List α) (unseen todo : List α) (b : α) : Prop :=
  ∃ a ∈ todo, a ∈ unseen ∧ ReflTransGen (StepsWithin next unseen) a b

variable [DecidableEq α] {a b : α} {rest : List α}

/-- A path either ends at `a`, or what is left of it after its last visit to `a` starts at a
successor of `a` or, without such a visit, where the whole path starts. -/
theorem isReached_erase {start : α} (hstart : start ∈ a :: rest) (hunseen : start ∈ unseen)
    (hpath : ReflTransGen (StepsWithin next unseen) start b) :
    b = a ∨ IsReached next (unseen.erase a) (next a ++ rest) b := by
  induction hpath with
  | refl =>
      rcases List.mem_cons.mp hstart with rfl | hrest
      · exact .inl rfl
      · by_cases hne : start = a
        · exact .inl hne
        · exact .inr ⟨start, List.mem_append_right _ hrest,
            (List.mem_erase_of_ne hne).mpr hunseen, .refl⟩
  | @tail c d _ hstep ih =>
      by_cases hd : d = a
      · exact .inl hd
      · have hleft : d ∈ unseen.erase a := (List.mem_erase_of_ne hd).mpr hstep.2
        rcases ih with rfl | ⟨first, hfirst, hfirstUnseen, hto⟩
        · exact .inr ⟨d, List.mem_append_left _ hstep.1, hleft, .refl⟩
        · exact .inr ⟨first, hfirst, hfirstUnseen, hto.tail ⟨hstep.1, hleft⟩⟩

theorem isReached_cons (ha : a ∈ unseen) :
    IsReached next unseen (a :: rest) b ↔
      b = a ∨ IsReached next (unseen.erase a) (next a ++ rest) b := by
  constructor
  · rintro ⟨start, hstart, hunseen, hpath⟩
    exact isReached_erase hstart hunseen hpath
  · rintro (rfl | ⟨start, hstart, hunseen, hpath⟩)
    · exact ⟨b, List.mem_cons_self, ha, .refl⟩
    · have hold : start ∈ unseen := List.mem_of_mem_erase hunseen
      have hpath' : ReflTransGen (StepsWithin next unseen) start b :=
        ReflTransGen.mono (fun _ _ hstep => ⟨hstep.1, List.mem_of_mem_erase hstep.2⟩) _ _ hpath
      rcases List.mem_append.mp hstart with hnext | hrest
      · exact ⟨a, List.mem_cons_self, ha, hpath'.head ⟨hnext, hold⟩⟩
      · exact ⟨start, List.mem_cons_of_mem a hrest, hold, hpath'⟩

omit [DecidableEq α] in
theorem isReached_cons_of_not_mem (ha : a ∉ unseen) :
    IsReached next unseen (a :: rest) b ↔ IsReached next unseen rest b := by
  constructor
  · rintro ⟨start, hstart, hunseen, hpath⟩
    rcases List.mem_cons.mp hstart with rfl | hrest
    · exact absurd hunseen ha
    · exact ⟨start, hrest, hunseen, hpath⟩
  · rintro ⟨start, hstart, hunseen, hpath⟩
    exact ⟨start, List.mem_cons_of_mem a hstart, hunseen, hpath⟩

/-- The walk finds what is reached without leaving the unseen elements. -/
theorem mem_explore_iff : b ∈ explore next unseen todo ↔ IsReached next unseen todo b := by
  fun_induction explore next unseen todo with
  | case1 => simp [IsReached]
  | case2 unseen a rest ha ih => rw [List.mem_cons, ih, isReached_cons ha]
  | case3 unseen a rest ha ih => rw [ih, isReached_cons_of_not_mem ha]

/-- From the successors of an element, and without coming back to it, the walk finds all other
elements that have a path from it. -/
theorem mem_explore_erase_iff {ids : List α} {start : α} (hids : ids.Nodup)
    (hnext : ∀ a b, b ∈ next a → b ∈ ids) :
    b ∈ explore next (ids.erase start) (next start) ↔
      b ≠ start ∧ TransGen (fun a c => c ∈ next a) start b := by
  rw [mem_explore_iff]
  constructor
  · rintro ⟨first, hfirst, hunseen, hpath⟩
    -- the path ends at an unseen place, because each of its steps leads to one
    have hend : b ∈ ids.erase start := by
      rcases hpath.cases_tail with rfl | ⟨c, -, hstep⟩
      · exact hunseen
      · exact hstep.2
    refine ⟨?_, ?_⟩
    · rintro rfl
      exact hids.not_mem_erase hend
    · exact .head' hfirst (ReflTransGen.mono (fun _ _ hstep => hstep.1) _ _ hpath)
  · rintro ⟨hne, hpath⟩
    induction hpath with
    | single hstep =>
        exact ⟨_, hstep, (List.mem_erase_of_ne hne).mpr (hnext _ _ hstep), .refl⟩
    | @tail c d _ hstep ih =>
        have hunseen : d ∈ ids.erase start := (List.mem_erase_of_ne hne).mpr (hnext _ _ hstep)
        -- a path that comes back to the start can begin with the step behind it
        by_cases hc : c = start
        · subst hc
          exact ⟨d, hstep, hunseen, .refl⟩
        · obtain ⟨first, hfirst, hfirstUnseen, hto⟩ := ih hc
          exact ⟨first, hfirst, hfirstUnseen, hto.tail ⟨hstep, hunseen⟩⟩

end Explore

/-! ## Ancestors and descendants -/

namespace LineageGraph

variable {graph other : LineageGraph} {start id : TableId}

/-- The file that produces `b` reads `a`. -/
def Feeds (graph : LineageGraph) (a b : TableId) : Prop :=
  (⟨a, b⟩ : Dependency) ∈ graph.dependencies

theorem mem_successors_iff {a b : TableId} : b ∈ graph.successors a ↔ graph.Feeds a b := by
  simp only [successors, List.mem_map, List.mem_filter, beq_iff_eq, Feeds]
  constructor
  · rintro ⟨d, ⟨hd, rfl⟩, rfl⟩
    exact hd
  · intro hd
    exact ⟨_, ⟨hd, rfl⟩, rfl⟩

theorem mem_predecessors_iff {a b : TableId} : b ∈ graph.predecessors a ↔ graph.Feeds b a := by
  simp only [predecessors, List.mem_map, List.mem_filter, beq_iff_eq, Feeds]
  constructor
  · rintro ⟨d, ⟨hd, rfl⟩, rfl⟩
    exact hd
  · intro hd
    exact ⟨_, ⟨hd, rfl⟩, rfl⟩

/-- The descendants of a table are the other tables with a path from it. -/
theorem mem_descendants_iff :
    id ∈ graph.descendants start ↔ id ≠ start ∧ TransGen graph.Feeds start id := by
  have hpaths : TransGen (fun a b => b ∈ graph.successors a) = TransGen graph.Feeds := by
    congr
    funext a b
    exact propext mem_successors_iff
  have hids : graph.ids.Nodup := graph.nodup_ids
  rw [descendants, mem_explore_erase_iff hids, hpaths]
  intro a b hb
  exact (graph.known _ (mem_successors_iff.mp hb)).2.1

/-- The ancestors of a table are the other tables with a path to it. -/
theorem mem_ancestors_iff :
    id ∈ graph.ancestors start ↔ id ≠ start ∧ TransGen graph.Feeds id start := by
  have hpaths : TransGen (fun a b => b ∈ graph.predecessors a) =
      TransGen (Function.swap graph.Feeds) := by
    congr
    funext a b
    exact propext mem_predecessors_iff
  have hids : graph.ids.Nodup := graph.nodup_ids
  rw [ancestors, mem_explore_erase_iff hids, hpaths, Relation.transGen_swap]
  intro a b hb
  exact (graph.known _ (mem_predecessors_iff.mp hb)).1

/-! ## Graphs with the same dependencies -/

theorem feeds_congr (h : ∀ d, d ∈ graph.dependencies ↔ d ∈ other.dependencies) :
    graph.Feeds = other.Feeds := by
  funext a b
  exact propext (h ⟨a, b⟩)

theorem loopOf_congr (h : ∀ d, d ∈ graph.dependencies ↔ d ∈ other.dependencies) (id : TableId) :
    graph.loopOf id = other.loopOf id := by
  apply Order.ascending_congr
  intro table
  simp only [List.mem_cons, List.mem_filter, List.contains_iff_mem, mem_ancestors_iff,
    mem_descendants_iff, feeds_congr h]

/-- The cycles of a graph depend on its ids and its dependencies, not on their order. -/
theorem cycles_congr (hids : ∀ id, id ∈ graph.ids ↔ id ∈ other.ids)
    (hdependencies : ∀ d, d ∈ graph.dependencies ↔ d ∈ other.dependencies) :
    graph.cycles = other.cycles := by
  simp only [cycles, Order.ascending_congr hids, loopOf_congr hdependencies]

end LineageGraph

end TableLineage
