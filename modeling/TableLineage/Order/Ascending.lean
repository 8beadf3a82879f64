/-!
# Ascending lists

Sets whose order shows are lists in strictly ascending order.  `insertAscending` adds an element in
its place, or nothing if the element is there, and keeps the order.
-/

namespace TableLineage.Order

variable {α : Type} [LT α] [DecidableLT α] [DecidableEq α]

/-- The ascending list with one more element. -/
def insertAscending (a : α) : List α → List α
  | [] => [a]
  | b :: rest =>
    if a < b then a :: b :: rest
    else if a = b then b :: rest
    else b :: insertAscending a rest

/-- The elements of a list in ascending order, each once. -/
def ascending (as : List α) : List α :=
  as.foldr insertAscending []

theorem mem_insertAscending {a b : α} {as : List α} :
    b ∈ insertAscending a as ↔ b = a ∨ b ∈ as := by
  induction as with
  | nil => simp [insertAscending]
  | cons c rest ih =>
    simp only [insertAscending]
    split
    · simp
    · split
      · simp_all
      · simp only [List.mem_cons, ih]
        constructor
        · rintro (h | h | h) <;> simp [h]
        · rintro (h | h | h) <;> simp [h]

theorem mem_ascending {a : α} {as : List α} : a ∈ ascending as ↔ a ∈ as := by
  induction as with
  | nil => simp [ascending]
  | cons b rest ih => simpa [ascending, mem_insertAscending] using or_congr Iff.rfl ih

/-- Insertion keeps the order. -/
theorem pairwise_insertAscending [Trans (α := α) (· < ·) (· < ·) (· < ·)]
    [Std.Trichotomous (α := α) (· < ·)] {a : α} {as : List α} (h : as.Pairwise (· < ·)) :
    (insertAscending a as).Pairwise (· < ·) := by
  induction as with
  | nil => simp [insertAscending]
  | cons b rest ih =>
    rw [List.pairwise_cons] at h
    simp only [insertAscending]
    split
    case isTrue hab =>
      refine List.pairwise_cons.2 ⟨fun c hc => ?_, List.pairwise_cons.2 h⟩
      rcases List.mem_cons.1 hc with rfl | hc
      · exact hab
      · exact Trans.trans hab (h.1 c hc)
    case isFalse hab =>
      split
      case isTrue => exact List.pairwise_cons.2 h
      case isFalse hne =>
        have hba : b < a := Classical.byContradiction fun hba =>
          hne (Std.Trichotomous.trichotomous a b hab hba)
        refine List.pairwise_cons.2 ⟨fun c hc => ?_, ih h.2⟩
        rcases mem_insertAscending.1 hc with rfl | hc
        · exact hba
        · exact h.1 c hc

/-- The elements of a list come out in strictly ascending order. -/
theorem pairwise_ascending [Trans (α := α) (· < ·) (· < ·) (· < ·)]
    [Std.Trichotomous (α := α) (· < ·)] (as : List α) : (ascending as).Pairwise (· < ·) := by
  induction as with
  | nil => exact .nil
  | cons a rest ih => exact pairwise_insertAscending ih

theorem perm_insertAscending {a : α} {as : List α} (h : a ∉ as) :
    (insertAscending a as).Perm (a :: as) := by
  induction as with
  | nil => exact .refl [a]
  | cons b rest ih =>
    rw [List.mem_cons, not_or] at h
    simp only [insertAscending, if_neg h.1]
    split
    · exact .refl _
    · exact ((ih h.2).cons b).trans (.swap a b rest)

/-- A list without repetitions is only put in order. -/
theorem perm_ascending {as : List α} (h : as.Nodup) : (ascending as).Perm as := by
  induction as with
  | nil => exact .refl []
  | cons a rest ih =>
    rw [List.nodup_cons] at h
    have hnew : a ∉ ascending rest := mt mem_ascending.1 h.1
    exact (perm_insertAscending hnew).trans ((ih h.2).cons a)

end TableLineage.Order
