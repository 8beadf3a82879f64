import Mathlib.Data.List.Sort
import TableLineage.Diagram.Payload

/-!
# Strictly ascending lists

A strictly ascending list is determined by its elements (`eq_of_mem_iff`), so `Order.ascending`
gives the same list for the same set (`ascending_congr`) and leaves a list alone that is strictly
ascending already (`ascending_eq_self`).

The ids, the dependencies and the edges of diagrams are ordered by texts, and their orders are
strict.
-/

namespace TableLineage

namespace Order

variable {α : Type} [LT α] [DecidableLT α] [DecidableEq α] [Trans (α := α) (· < ·) (· < ·) (· < ·)]
  [Std.Irrefl (α := α) (· < ·)]

omit [DecidableLT α] [DecidableEq α] in
theorem eq_of_mem_iff {as bs : List α} (has : as.Pairwise (· < ·)) (hbs : bs.Pairwise (· < ·))
    (h : ∀ a, a ∈ as ↔ a ∈ bs) : as = bs := by
  have hantisymm : Std.Antisymm (α := α) (· < ·) :=
    ⟨fun a b hab hba => absurd (Trans.trans hab hba) (Std.Irrefl.irrefl a)⟩
  exact has.eq_of_mem_iff hbs h

variable [Std.Trichotomous (α := α) (· < ·)]

/-- A set of elements has one ascending list. -/
theorem ascending_congr {as bs : List α} (h : ∀ a, a ∈ as ↔ a ∈ bs) :
    ascending as = ascending bs := by
  apply eq_of_mem_iff (pairwise_ascending as) (pairwise_ascending bs)
  intro a
  rw [mem_ascending, mem_ascending, h]

theorem ascending_eq_self {as : List α} (h : as.Pairwise (· < ·)) : ascending as = as :=
  eq_of_mem_iff (pairwise_ascending as) h fun _ => mem_ascending

end Order

/-! ## The orders of this library -/

instance : Std.Irrefl (α := TableId) (· < ·) :=
  ⟨fun id => String.lt_irrefl id.value⟩

instance : Std.Irrefl (α := Dependency) (· < ·) :=
  ⟨fun d h => h.elim (Std.Irrefl.irrefl d.source) fun h => Std.Irrefl.irrefl d.target h.2⟩

namespace DiagramEdge

instance : Std.Irrefl (α := DiagramEdge) (· < ·) :=
  ⟨fun e h => h.elim (String.lt_irrefl e.source) fun h => String.lt_irrefl e.target h.2⟩

instance : Trans (α := DiagramEdge) (· < ·) (· < ·) (· < ·) where
  trans {a b c} hab hbc := by
    rcases hab with hab | ⟨hab, hab'⟩ <;> rcases hbc with hbc | ⟨hbc, hbc'⟩
    · exact .inl (String.lt_trans hab hbc)
    · exact .inl (hbc ▸ hab)
    · exact .inl (hab ▸ hbc)
    · exact .inr ⟨hab.trans hbc, String.lt_trans hab' hbc'⟩

instance : Std.Trichotomous (α := DiagramEdge) (· < ·) where
  trichotomous
    | ⟨s, t⟩, ⟨s', t'⟩, hab, hba => by
      have hs : s = s' := Std.Trichotomous.trichotomous (r := (· < ·)) s s'
        (fun h => hab (.inl h)) (fun h => hba (.inl h))
      subst hs
      have ht : t = t' := Std.Trichotomous.trichotomous (r := (· < ·)) t t'
        (fun h => hab (.inr ⟨rfl, h⟩)) (fun h => hba (.inr ⟨rfl, h⟩))
      subst ht
      rfl

end DiagramEdge

end TableLineage
