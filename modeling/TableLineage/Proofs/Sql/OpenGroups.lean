import Mathlib.Data.List.Basic
import TableLineage.Sql.Token

/-!
# Unmatched parentheses

An opening parenthesis is unmatched before a position if no stretch from it on closes more groups
than it opens.  Closing parentheses that close nothing play no part: whatever closes between an
unmatched parenthesis and the position closes a group that was opened in between.

`mem_openGroups_iff` says that a stack, pushed at every `(` and popped at every `)`, holds exactly
the unmatched parentheses.  The invariant behind it is that a parenthesis with `p` others above it
on the stack has `p` more openings than closings after it (`nested_of_openGroups`); the next closing
parenthesis therefore matches it just if nothing is above it.  `enclosing?_eq` follows: the last
unmatched parenthesis is the top of the stack.
-/

namespace TableLineage.Sql

/-- The last number below a bound that has a property. -/
def lastBelow? (p : Nat → Bool) : Nat → Option Nat
  | 0 => none
  | i + 1 => if p i then some i else lastBelow? p i

theorem lastBelow?_eq_none_iff {p : Nat → Bool} {i : Nat} :
    lastBelow? p i = none ↔ ∀ j < i, p j = false := by
  induction i with
  | zero => simp [lastBelow?]
  | succ i ih =>
      simp only [lastBelow?]
      by_cases hp : p i = true
      · rw [if_pos hp]
        exact iff_of_false (by simp) fun h => by simp [h i (Nat.lt_succ_self i)] at hp
      · rw [if_neg hp, ih]
        constructor
        · intro h j hj
          rcases Nat.lt_succ_iff_lt_or_eq.mp hj with hj | rfl
          · exact h j hj
          · simpa using hp
        · intro h j hj
          exact h j (Nat.lt_succ_of_lt hj)

theorem lastBelow?_eq_some_iff {p : Nat → Bool} {i j : Nat} :
    lastBelow? p i = some j ↔ j < i ∧ p j = true ∧ ∀ k < i, j < k → p k = false := by
  induction i with
  | zero => simp [lastBelow?]
  | succ i ih =>
      simp only [lastBelow?]
      -- either the bound itself is the last place, or it does not count
      by_cases hp : p i = true
      · rw [if_pos hp, Option.some.injEq]
        constructor
        · rintro rfl
          exact ⟨Nat.lt_succ_self i, hp, fun k hk hik => by omega⟩
        · rintro ⟨hj, -, hlast⟩
          by_contra hne
          have hlate := hlast i (Nat.lt_succ_self i) (by omega)
          rw [hp] at hlate
          cases hlate
      · rw [if_neg hp, ih]
        constructor
        · rintro ⟨hj, hpj, hlast⟩
          refine ⟨Nat.lt_succ_of_lt hj, hpj, ?_⟩
          intro k hk hjk
          rcases Nat.lt_succ_iff_lt_or_eq.mp hk with hk | rfl
          · exact hlast k hk hjk
          · simpa using hp
        · rintro ⟨hj, hpj, hlast⟩
          have hne : j ≠ i := fun h => hp (h ▸ hpj)
          exact ⟨by omega, hpj, fun k hk hjk => hlast k (Nat.lt_succ_of_lt hk) hjk⟩

variable (tokens : List Token)

/-! ## Groups by counting -/

/-- How often a token stands after position `j` and before position `k`. -/
def countBetween (token : Token) (j k : Nat) : Nat :=
  ((tokens.take k).drop (j + 1)).count token

/-- The parenthesis at `j` opens a group that is still open before position `i`. -/
def IsOpenAt (j i : Nat) : Prop :=
  j < i ∧ tokens[j]? = some .openParen ∧
    ∀ k ≤ i, countBetween tokens .closeParen j k ≤ countBetween tokens .openParen j k

instance (j i : Nat) : Decidable (IsOpenAt tokens j i) :=
  inferInstanceAs (Decidable (_ ∧ _ ∧ ∀ k ≤ i, _))

/-- The position of the parenthesis whose group encloses position `i`, or none at the top level. -/
def enclosing? (i : Nat) : Option Nat :=
  lastBelow? (fun j => decide (IsOpenAt tokens j i)) i

variable {tokens}

variable (tokens) in
theorem countBetween_succ (token : Token) (j i : Nat) :
    countBetween tokens token j (i + 1) =
      countBetween tokens token j i + if j < i ∧ tokens[i]? = some token then 1 else 0 := by
  unfold countBetween
  rw [List.take_add_one, List.drop_append, List.count_append]
  congr 1
  cases hi : tokens[i]? with
  | none => simp
  | some present =>
      obtain ⟨hlength, -⟩ := List.getElem?_eq_some_iff.mp hi
      rw [List.length_take, Nat.min_eq_left (Nat.le_of_lt hlength)]
      by_cases hj : j < i
      · rw [Nat.sub_eq_zero_of_le hj]
        by_cases htoken : present = token <;> simp [hj, htoken]
      · obtain ⟨more, hmore⟩ : ∃ more, j + 1 - i = more + 1 := ⟨j - i, by omega⟩
        rw [hmore]
        simp [hj]

theorem countBetween_self (token : Token) (j : Nat) : countBetween tokens token j (j + 1) = 0 := by
  have hnil : (tokens.take (j + 1)).drop (j + 1) = [] := by simp
  simp [countBetween, hnil]

/-! ## Groups on a stack -/

variable (tokens) in
/-- The positions of the parentheses that are open before position `i`, innermost first. -/
def openGroups : Nat → List Nat
  | 0 => []
  | i + 1 =>
    match tokens[i]? with
    | some .openParen => i :: openGroups i
    | some .closeParen => (openGroups i).tail
    | _ => openGroups i

theorem openGroups_openParen {i : Nat} (h : tokens[i]? = some .openParen) :
    openGroups tokens (i + 1) = i :: openGroups tokens i := by
  simp only [openGroups, h]

theorem openGroups_closeParen {i : Nat} (h : tokens[i]? = some .closeParen) :
    openGroups tokens (i + 1) = (openGroups tokens i).tail := by
  simp only [openGroups, h]

theorem openGroups_other {i : Nat} (hopen : tokens[i]? ≠ some .openParen)
    (hclose : tokens[i]? ≠ some .closeParen) :
    openGroups tokens (i + 1) = openGroups tokens i := by
  simp only [openGroups]

variable (tokens) in
/-- What a token does to the stack. -/
theorem openGroups_succ (i : Nat) :
    (tokens[i]? = some .openParen ∧ openGroups tokens (i + 1) = i :: openGroups tokens i) ∨
      (tokens[i]? = some .closeParen ∧ openGroups tokens (i + 1) = (openGroups tokens i).tail) ∨
      (tokens[i]? ≠ some .openParen ∧ tokens[i]? ≠ some .closeParen ∧
        openGroups tokens (i + 1) = openGroups tokens i) := by
  by_cases hopen : tokens[i]? = some .openParen
  · exact .inl ⟨hopen, openGroups_openParen hopen⟩
  · by_cases hclose : tokens[i]? = some .closeParen
    · exact .inr (.inl ⟨hclose, openGroups_closeParen hclose⟩)
    · exact .inr (.inr ⟨hopen, hclose, openGroups_other hopen hclose⟩)

theorem lt_of_mem_openGroups {j i : Nat} (h : j ∈ openGroups tokens i) : j < i := by
  induction i with
  | zero => cases h
  | succ i ih =>
      apply Nat.lt_succ_of_le
      obtain ⟨-, hgroups⟩ | ⟨-, hgroups⟩ | ⟨-, -, hgroups⟩ := openGroups_succ tokens i <;>
        rw [hgroups] at h
      · rcases List.mem_cons.mp h with rfl | h
        · exact Nat.le_refl j
        · exact Nat.le_of_lt (ih h)
      · exact Nat.le_of_lt (ih (List.mem_of_mem_tail h))
      · exact Nat.le_of_lt (ih h)

variable (tokens) in
/-- Inner groups are opened later. -/
theorem pairwise_openGroups (i : Nat) : (openGroups tokens i).Pairwise (· > ·) := by
  induction i with
  | zero => exact .nil
  | succ i ih =>
      obtain ⟨-, hgroups⟩ | ⟨-, hgroups⟩ | ⟨-, -, hgroups⟩ := openGroups_succ tokens i <;>
        rw [hgroups]
      · exact List.pairwise_cons.mpr ⟨fun j hj => lt_of_mem_openGroups hj, ih⟩
      · exact ih.tail
      · exact ih

theorem IsOpenAt.of_succ {j i : Nat} (hj : j < i) (h : IsOpenAt tokens j (i + 1)) :
    IsOpenAt tokens j i :=
  ⟨hj, h.2.1, fun k hk => h.2.2 k (Nat.le_succ_of_le hk)⟩

theorem IsOpenAt.succ {j i : Nat} (h : IsOpenAt tokens j i)
    (hbalance : countBetween tokens .closeParen j (i + 1) ≤
      countBetween tokens .openParen j (i + 1)) :
    IsOpenAt tokens j (i + 1) := by
  refine ⟨Nat.lt_succ_of_lt h.1, h.2.1, ?_⟩
  intro k hk
  rcases Nat.lt_succ_iff_lt_or_eq.mp (Nat.lt_succ_of_le hk) with hk | rfl
  · exact h.2.2 k (Nat.le_of_lt_succ hk)
  · exact hbalance

theorem isOpenAt_self {i : Nat} (h : tokens[i]? = some .openParen) : IsOpenAt tokens i (i + 1) := by
  refine ⟨Nat.lt_succ_self i, h, ?_⟩
  intro k hk
  have hnil : (tokens.take k).drop (i + 1) = [] :=
    List.drop_eq_nil_of_le (Nat.le_trans (List.length_take_le _ _) hk)
  simp [countBetween, hnil]

/-- A parenthesis with `p` others above it is unmatched, and `p` more groups were opened after it
than closed. -/
theorem nested_of_openGroups {p j i : Nat} (h : (openGroups tokens i)[p]? = some j) :
    IsOpenAt tokens j i ∧
      countBetween tokens .openParen j i = countBetween tokens .closeParen j i + p := by
  induction i generalizing p with
  | zero => simp [openGroups] at h
  | succ i ih =>
      have hopens := countBetween_succ tokens .openParen j i
      have hcloses := countBetween_succ tokens .closeParen j i
      obtain ⟨hopen, hgroups⟩ | ⟨hclose, hgroups⟩ | ⟨hopen, hclose, hgroups⟩ :=
        openGroups_succ tokens i <;> rw [hgroups] at h
      · cases p with
        | zero =>
            obtain rfl : i = j := by simpa using h
            exact ⟨isOpenAt_self hopen, by simp only [countBetween_self]⟩
        | succ p =>
            obtain ⟨hold, hbalance⟩ := ih (p := p) (by simpa using h)
            simp only [hold.1, hopen, true_and, if_true, Option.some.injEq, reduceCtorEq,
              if_false] at hopens hcloses
            exact ⟨hold.succ (by omega), by omega⟩
      · rw [List.getElem?_tail] at h
        obtain ⟨hold, hbalance⟩ := ih h
        -- with a group above it the one at `j` has an opening to spare
        simp only [hold.1, hclose, true_and, if_true, Option.some.injEq, reduceCtorEq,
          if_false] at hopens hcloses
        exact ⟨hold.succ (by omega), by omega⟩
      · obtain ⟨hold, hbalance⟩ := ih h
        simp only [hopen, hclose, and_false, if_false] at hopens hcloses
        exact ⟨hold.succ (by omega), by omega⟩

theorem mem_openGroups_iff {j i : Nat} : j ∈ openGroups tokens i ↔ IsOpenAt tokens j i := by
  constructor
  · intro hmem
    obtain ⟨p, hp⟩ := List.mem_iff_getElem?.mp hmem
    exact (nested_of_openGroups hp).1
  · intro h
    induction i with
    | zero => exact absurd h.1 (Nat.not_lt_zero j)
    | succ i ih =>
        rcases Nat.lt_succ_iff_lt_or_eq.mp h.1 with hj | rfl
        · have hold := ih (h.of_succ hj)
          obtain ⟨-, hgroups⟩ | ⟨hclose, hgroups⟩ | ⟨-, -, hgroups⟩ := openGroups_succ tokens i <;>
            rw [hgroups]
          · exact List.mem_cons_of_mem i hold
          · obtain ⟨p, hp⟩ := List.mem_iff_getElem?.mp hold
            have hbalance := (nested_of_openGroups hp).2
            have hopens := countBetween_succ tokens .openParen j i
            have hcloses := countBetween_succ tokens .closeParen j i
            simp only [hj, hclose, true_and, if_true, Option.some.injEq, reduceCtorEq,
              if_false] at hopens hcloses
            have hstill := h.2.2 (i + 1) (Nat.le_refl _)
            -- the group at `j` is not the innermost, or this parenthesis would close it
            obtain ⟨above, rfl⟩ : ∃ above, p = above + 1 := ⟨p - 1, by omega⟩
            refine List.mem_iff_getElem?.mpr ⟨above, ?_⟩
            rw [List.getElem?_tail]
            exact hp
          · exact hold
        · rw [openGroups_openParen h.2.1]
          exact List.mem_cons_self

theorem enclosing?_eq (i : Nat) : enclosing? tokens i = (openGroups tokens i).head? := by
  cases hgroups : openGroups tokens i with
  | nil =>
      apply lastBelow?_eq_none_iff.mpr
      intro j _
      apply decide_eq_false
      intro hopen
      rw [← mem_openGroups_iff, hgroups] at hopen
      cases hopen
  | cons j outer =>
      have hmem : j ∈ openGroups tokens i := by simp [hgroups]
      -- the top of the stack was opened last
      have hfirst := pairwise_openGroups tokens i
      rw [hgroups, List.pairwise_cons] at hfirst
      refine lastBelow?_eq_some_iff.mpr ⟨lt_of_mem_openGroups hmem,
        decide_eq_true (mem_openGroups_iff.mp hmem), ?_⟩
      intro k _ hjk
      apply decide_eq_false
      intro hopen
      rw [← mem_openGroups_iff, hgroups, List.mem_cons] at hopen
      rcases hopen with rfl | hk
      · exact Nat.lt_irrefl k hjk
      · exact Nat.lt_asymm hjk (hfirst.1 k hk)

theorem lt_of_enclosing?_eq_some {g i : Nat} (h : enclosing? tokens i = some g) : g < i :=
  (lastBelow?_eq_some_iff.mp h).1

theorem openParen_of_enclosing?_eq_some {g i : Nat} (h : enclosing? tokens i = some g) :
    tokens[g]? = some .openParen :=
  (of_decide_eq_true (lastBelow?_eq_some_iff.mp h).2.1).2.1

end TableLineage.Sql
