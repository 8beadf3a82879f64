import Mathlib.Data.List.Pairwise
import Mathlib.Data.String.Basic
import TableLineage.File.Path

/-!
# The order of paths

Paths are compared component by component.  Two paths with the same components are equal for this
order but need not be the same text, so it is a total preorder and no more; what makes a sorted
list of paths unique is that `Path.sortBy` keeps the order of values with the same path.

* `Path.pairwise_sortBy`: the sorted values are in order;
* `Path.sortBy_perm`: they are the values that were given;
* `Path.filter_same_sortBy`: the values of one path stand in the order in which they were given;
* `Path.sortBy_congr`: where no two values have the same path, the order in which they were given
  does not matter.
-/

namespace TableLineage

namespace PathComponent

theorem less_iff {a b : PathComponent} :
    a.less b = true ↔ a.rank < b.rank ∨ (a.rank = b.rank ∧ a.text < b.text) := by
  simp [less]

theorem eq_of_rank_of_text {a b : PathComponent} (hrank : a.rank = b.rank)
    (htext : a.text = b.text) : a = b := by
  cases a <;> cases b <;> simp_all [rank, text]

theorem less_irrefl (a : PathComponent) : a.less a = false := by
  simp [less]

theorem less_trans {a b c : PathComponent} (hab : a.less b = true) (hbc : b.less c = true) :
    a.less c = true := by
  rw [less_iff] at hab hbc ⊢
  rcases hab with hab | ⟨hab, htext⟩ <;> rcases hbc with hbc | ⟨hbc, htext'⟩
  · exact .inl (hab.trans hbc)
  · exact .inl (hbc ▸ hab)
  · exact .inl (hab ▸ hbc)
  · exact .inr ⟨hab.trans hbc, htext.trans htext'⟩

theorem less_trichotomy (a b : PathComponent) : a.less b = true ∨ a = b ∨ b.less a = true := by
  simp only [less_iff]
  rcases lt_trichotomy a.rank b.rank with h | h | h
  · exact .inl (.inl h)
  · rcases lt_trichotomy a.text b.text with h' | h' | h'
    · exact .inl (.inr ⟨h, h'⟩)
    · exact .inr (.inl (eq_of_rank_of_text h h'))
    · exact .inr (.inr (.inr ⟨h.symm, h'⟩))
  · exact .inr (.inr (.inl h))

/-- Whatever stands beside two components in order is after the first or before the second. -/
theorem less_cotrans {a c : PathComponent} (b : PathComponent) (hac : a.less c = true) :
    a.less b = true ∨ b.less c = true := by
  rcases less_trichotomy a b with hab | rfl | hba
  · exact .inl hab
  · exact .inr hac
  · exact .inr (less_trans hba hac)

end PathComponent

namespace Path

/-! ## Component by component -/

theorem lessComponents_irrefl (as : List PathComponent) : lessComponents as as = false := by
  induction as with
  | nil => rfl
  | cons a as ih => simp [lessComponents, PathComponent.less_irrefl, ih]

theorem lessComponents_cons {a b : PathComponent} {as bs : List PathComponent} :
    lessComponents (a :: as) (b :: bs) = true ↔
      a.less b = true ∨ (a = b ∧ lessComponents as bs = true) := by
  simp [lessComponents]

theorem lessComponents_cotrans {as cs : List PathComponent} (bs : List PathComponent)
    (h : lessComponents as cs = true) :
    lessComponents as bs = true ∨ lessComponents bs cs = true := by
  induction as generalizing bs cs with
  | nil =>
      cases cs with
      | nil => simp [lessComponents] at h
      | cons c cs => cases bs <;> simp [lessComponents]
  | cons a as ih =>
      cases cs with
      | nil => simp [lessComponents] at h
      | cons c cs =>
          cases bs with
          | nil => exact .inr rfl
          | cons b bs =>
              simp only [lessComponents_cons] at h ⊢
              -- the first components decide unless `b` is the same as both
              rcases h with hac | ⟨rfl, hrest⟩
              · exact (PathComponent.less_cotrans b hac).imp .inl .inl
              · rcases PathComponent.less_trichotomy a b with hab | rfl | hba
                · exact .inl (.inl hab)
                · exact (ih bs hrest).imp (fun h => .inr ⟨rfl, h⟩) (fun h => .inr ⟨rfl, h⟩)
                · exact .inr (.inl hba)

theorem lessComponents_asymm {as bs : List PathComponent} (hab : lessComponents as bs = true)
    (hba : lessComponents bs as = true) : False := by
  induction as generalizing bs with
  | nil => cases bs <;> simp [lessComponents] at hba
  | cons a as ih =>
      cases bs with
      | nil => simp [lessComponents] at hab
      | cons b bs =>
          rw [lessComponents_cons] at hab hba
          rcases hab with hab | ⟨rfl, hab⟩
          · rcases hba with hba | ⟨rfl, -⟩
            · have hloop := PathComponent.less_trans hab hba
              simp [PathComponent.less_irrefl] at hloop
            · simp [PathComponent.less_irrefl] at hab
          · rcases hba with hba | ⟨-, hba⟩
            · simp [PathComponent.less_irrefl] at hba
            · exact ih hab hba

theorem eq_of_not_lessComponents {as bs : List PathComponent} (hab : lessComponents as bs = false)
    (hba : lessComponents bs as = false) : as = bs := by
  induction as generalizing bs with
  | nil =>
      cases bs with
      | nil => rfl
      | cons b bs => simp [lessComponents] at hab
  | cons a as ih =>
      cases bs with
      | nil => simp [lessComponents] at hba
      | cons b bs =>
          rw [← Bool.not_eq_true, lessComponents_cons, not_or] at hab hba
          rcases PathComponent.less_trichotomy a b with hless | rfl | hless
          · exact absurd hless hab.1
          · rw [ih (by simpa using hab.2) (by simpa using hba.2)]
          · exact absurd hless hba.1

/-! ## The order -/

theorem le_trans {a b c : Path} (hab : a.le b = true) (hbc : b.le c = true) : a.le c = true := by
  simp only [le, Bool.not_eq_true'] at hab hbc ⊢
  by_contra hca
  rw [Bool.not_eq_false] at hca
  rcases lessComponents_cotrans b.components hca with h | h
  · rw [hbc] at h; cases h
  · rw [hab] at h; cases h

theorem le_total (a b : Path) : (a.le b || b.le a) = true := by
  rw [Bool.or_eq_true]
  by_contra hneither
  simp only [le, Bool.not_eq_true', not_or, Bool.not_eq_false] at hneither
  exact lessComponents_asymm hneither.1 hneither.2

theorem le_of_same {a b : Path} (h : a.same b = true) : a.le b = true := by
  have heq : a.components = b.components := by simpa [same] using h
  simp [le, heq, lessComponents_irrefl]

theorem same_of_le {a b : Path} (hab : a.le b = true) (hba : b.le a = true) : a.same b = true := by
  rw [le, Bool.not_eq_true'] at hab hba
  simp [same, eq_of_not_lessComponents hba hab]

/-- Of two paths in order with different components the first is before the second. -/
theorem lessComponents_of_le {a b : Path} (hle : a.le b = true)
    (hne : a.components ≠ b.components) :
    lessComponents a.components b.components = true := by
  rw [le, Bool.not_eq_true'] at hle
  by_contra hless
  exact hne (eq_of_not_lessComponents (by simpa using hless) hle)

theorem same_comm (a b : Path) : a.same b = b.same a :=
  Bool.beq_comm

/-! ## Sorting by path -/

section SortBy

variable {α : Type} (path : α → Path) (values : List α)

theorem sortBy_perm : (sortBy path values).Perm values :=
  List.mergeSort_perm _ _

theorem pairwise_sortBy :
    (sortBy path values).Pairwise fun a b => (path a).le (path b) = true := by
  unfold sortBy
  exact List.pairwise_mergeSort (fun a b c => le_trans (a := path a) (b := path b) (c := path c))
    (fun a b => le_total (path a) (path b)) values

/-- Sorting only looks at the paths. -/
theorem map_sortBy {β : Type} (value : β → α) (others : List β) :
    (sortBy (fun other => path (value other)) others).map value = sortBy path (others.map value) :=
  List.map_mergeSort fun _ _ _ _ => rfl

/-- Values of one path keep their order: they are a sorted part of the list, and sorting keeps
every sorted part. -/
theorem filter_same_sortBy (there : Path) :
    (sortBy path values).filter (fun value => (path value).same there) =
      values.filter fun value => (path value).same there := by
  have hequal : ∀ a ∈ values.filter (fun value => (path value).same there),
      ∀ b ∈ values.filter (fun value => (path value).same there),
        (path a).le (path b) = true := by
    intro a ha b hb
    have hcomponents := (List.mem_filter.mp ha).2
    have hcomponents' := (List.mem_filter.mp hb).2
    simp only [same, beq_iff_eq] at hcomponents hcomponents'
    exact le_of_same (by simp [same, hcomponents, hcomponents'])
  have hsorted : (values.filter fun value => (path value).same there).Pairwise
      fun a b => (path a).le (path b) = true :=
    List.pairwise_of_forall_sublist fun hpair =>
      hequal _ (hpair.subset (by simp)) _ (hpair.subset (by simp))
  have hkept : (values.filter fun value => (path value).same there).Sublist
      (sortBy path values) := by
    unfold sortBy
    exact List.sublist_mergeSort
      (fun a b c => le_trans (a := path a) (b := path b) (c := path c))
      (fun a b => le_total (path a) (path b)) hsorted List.filter_sublist
  -- a sublist of the same length is the whole list
  have hpart := hkept.filter fun value => (path value).same there
  rw [List.filter_filter] at hpart
  simp only [Bool.and_self] at hpart
  exact (hpart.eq_of_length ((sortBy_perm path values).filter _).length_eq.symm).symm

/-- Values with different paths have one order by path. -/
theorem sortBy_congr {values others : List α} (hperm : values.Perm others)
    (hdiffer : values.Pairwise fun a b => (path a).same (path b) = false) :
    sortBy path values = sortBy path others := by
  have hsymm : Std.Symm fun a b : α => (path a).same (path b) = false :=
    ⟨fun a b h => (same_comm (path b) (path a)).trans h⟩
  have hsorted : (sortBy path values).Perm (sortBy path others) :=
    calc (sortBy path values).Perm values := sortBy_perm path values
      List.Perm _ others := hperm
      List.Perm _ (sortBy path others) := (sortBy_perm path others).symm
  apply hsorted.eq_of_pairwise ?_ (pairwise_sortBy path values) (pairwise_sortBy path others)
  intro a b ha hb hab hba
  -- two different values would have the same path
  by_contra hne
  have ha' : a ∈ values := (sortBy_perm path values).mem_iff.mp ha
  have hb' : b ∈ values := hperm.mem_iff.mpr ((sortBy_perm path others).mem_iff.mp hb)
  have hother := hdiffer.forall ha' hb' hne
  rw [same_of_le hab hba] at hother
  cases hother

end SortBy

end Path

end TableLineage
