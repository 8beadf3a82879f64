import TableLineage.Proofs.Text.LowerCaseForms
import TableLineage.Text.Classes

/-!
# Trimming

A text whose ends fail the predicate is what trimming leaves of it (`trimWhile_eq_self`), also if
characters that satisfy the predicate stand before it (`trimWhile_append`).  What trimming leaves is
such a text (`isTrimmed_trimWhile`), and so are two such texts with a character between that fails
the predicate (`IsTrimmed.join`).  Trimming takes away no other characters than those that satisfy
the predicate (`countP_trimWhile`, `filter_trimWhile`).

Blanks have no case (`isUncased_of_isBlank`), so that trimmed text is trimmed in lower case too
(`IsTrimmed.lowerAfter`).
-/

namespace TableLineage.Text

variable {p : Char → Bool} {before text : List Char}

theorem dropWhile_eq_self (h : text.head?.any p = false) : text.dropWhile p = text := by
  cases text with
  | nil => rfl
  | cons c text =>
      have hc : ¬ p c = true := by simpa using h
      rw [List.dropWhile_cons_of_neg hc]

theorem trimWhile_eq_self (hhead : text.head?.any p = false) (hlast : text.getLast?.any p = false) :
    trimWhile p text = text := by
  rw [← List.head?_reverse] at hlast
  rw [trimWhile, dropWhile_eq_self hhead, dropWhile_eq_self hlast, List.reverse_reverse]

/-- The ends of a text, if it has any, fail the predicate. -/
structure IsTrimmed (p : Char → Bool) (text : List Char) : Prop where
  head : text.head?.any p = false
  last : text.getLast?.any p = false

namespace IsTrimmed

theorem reverse (h : IsTrimmed p text) : IsTrimmed p text.reverse where
  head := by rw [List.head?_reverse, h.last]
  last := by rw [List.getLast?_reverse, h.head]

/-- The ends of two texts with a character between are ends of the texts, or that character. -/
theorem join {other : List Char} {c : Char} (htext : IsTrimmed p text) (hc : p c = false)
    (hother : IsTrimmed p other) : IsTrimmed p (text ++ c :: other) where
  head := by
    cases text with
    | nil => exact hc
    | cons d text => exact htext.head
  last := by
    rw [List.getLast?_append, List.getLast?_cons, Option.some_or]
    have hlast := hother.last
    cases hother : other.getLast? with
    | none => exact hc
    | some d => rwa [hother] at hlast

end IsTrimmed

theorem head?_dropWhile_any (p : Char → Bool) (text : List Char) :
    (text.dropWhile p).head?.any p = false := by
  induction text with
  | nil => rfl
  | cons c text ih =>
      rw [List.dropWhile_cons]
      split
      case isTrue => exact ih
      case isFalse hc => simpa using hc

theorem isTrimmed_trimWhile (p : Char → Bool) (text : List Char) :
    IsTrimmed p (trimWhile p text) := by
  refine IsTrimmed.reverse ⟨head?_dropWhile_any p _, ?_⟩
  -- the last character of what the second pass leaves is the first that the first pass left
  cases hrest : (text.dropWhile p).reverse.dropWhile p with
  | nil => rfl
  | cons c rest =>
      have hsuffix : c :: rest <:+ (text.dropWhile p).reverse := hrest ▸ List.dropWhile_suffix p
      obtain ⟨before, hbefore⟩ := hsuffix
      have hhead := head?_dropWhile_any p text
      rwa [← List.getLast?_reverse, ← hbefore, List.getLast?_append, List.getLast?_cons,
        Option.some_or, ← List.getLast?_cons] at hhead

theorem trim_eq_self {text : String} (h : ∀ c ∈ text.toList, isBlank c = false) :
    trim text = text := by
  have hhead := (Option.any_eq_false isBlank _).mpr fun c hc => h c (List.mem_of_head? hc)
  have hlast := (Option.any_eq_false isBlank _).mpr fun c hc => h c (List.mem_of_getLast? hc)
  rw [trim, trimWhile_eq_self hhead hlast, String.ofList_toList]

theorem trimWhile_append (hbefore : before.all p = true) (text : List Char) :
    trimWhile p (before ++ text) = trimWhile p text := by
  rw [trimWhile, List.dropWhile_append_of_pos (List.all_eq_true.mp hbefore), ← trimWhile]

theorem trimWhile_infix (p : Char → Bool) (text : List Char) : trimWhile p text <:+: text := by
  have hstart : text.dropWhile p <:+ text := List.dropWhile_suffix p
  have hend : trimWhile p text <+: text.dropWhile p := by
    rw [trimWhile, ← List.reverse_suffix, List.reverse_reverse]
    exact List.dropWhile_suffix p
  exact hend.isInfix.trans hstart.isInfix

theorem countP_dropWhile {q : Char → Bool} (h : ∀ c, q c = true → p c = false) (text : List Char) :
    (text.dropWhile p).countP q = text.countP q := by
  induction text with
  | nil => rfl
  | cons c text ih =>
      rw [List.dropWhile_cons]
      split
      case isTrue hc =>
          have hq : ¬ q c = true := fun hq => by rw [h c hq] at hc; cases hc
          rw [ih, List.countP_cons_of_neg hq]
      case isFalse => rfl

/-- Trimming loses no other characters than those that satisfy the predicate. -/
theorem countP_trimWhile {q : Char → Bool} (h : ∀ c, q c = true → p c = false) (text : List Char) :
    (trimWhile p text).countP q = text.countP q := by
  rw [trimWhile, List.countP_reverse, countP_dropWhile h, List.countP_reverse, countP_dropWhile h]

theorem filter_dropWhile (p : Char → Bool) (text : List Char) :
    ((text.dropWhile p).filter fun c => !p c) = text.filter fun c => !p c := by
  induction text with
  | nil => rfl
  | cons c text ih =>
      rw [List.dropWhile_cons]
      split
      case isTrue hc => rw [ih, List.filter_cons_of_neg (by simp [hc])]
      case isFalse => rfl

/-- Trimming before the characters are left out everywhere changes nothing. -/
theorem filter_trimWhile (p : Char → Bool) (text : List Char) :
    ((trimWhile p text).filter fun c => !p c) = text.filter fun c => !p c := by
  calc ((trimWhile p text).filter fun c => !p c)
      = ((text.dropWhile p).reverse.filter fun c => !p c).reverse := by
        rw [trimWhile, List.filter_reverse, filter_dropWhile]
    _ = (text.dropWhile p).filter fun c => !p c := by
        rw [List.filter_reverse, List.reverse_reverse]
    _ = text.filter fun c => !p c := filter_dropWhile p text

/-! ## Lower case -/

theorem CodeRanges.exists_of_contains {ranges : CodeRanges} {n : Nat}
    (h : ranges.contains n = true) :
    ∃ range ∈ ranges, range.1 ≤ n ∧ n ≤ range.2 := by
  induction ranges with
  | nil => cases h
  | cons range ranges ih =>
      rw [CodeRanges.contains] at h
      split at h
      case isTrue => cases h
      case isFalse hfirst =>
        split at h
        case isTrue hlast => exact ⟨range, List.mem_cons_self, Nat.le_of_not_lt hfirst, hlast⟩
        case isFalse =>
          obtain ⟨other, hother, hbounds⟩ := ih h
          exact ⟨other, List.mem_cons_of_mem range hother, hbounds⟩

/-- Blanks have no other case. -/
theorem isUncased_of_isBlank (c : Char) (h : isBlank c = true) : IsUncased c := by
  have hall : ∀ range ∈ blankRanges, ∀ i < range.2 + 1 - range.1,
      IsUncased (.ofNat (range.1 + i)) := by
    decide +kernel
  obtain ⟨range, hrange, hfirst, hlast⟩ := CodeRanges.exists_of_contains h
  have hcode : range.1 + (c.toNat - range.1) = c.toNat := by omega
  have huncased := hall range hrange (c.toNat - range.1) (by omega)
  rwa [hcode, Char.ofNat_toNat] at huncased

theorem lowerIn_ne_nil (before : List Char) (c : Char) (after : List Char) :
    lowerIn before c after ≠ [] := by
  unfold lowerIn
  split
  · split <;> exact List.cons_ne_nil _ _
  · split <;> exact List.cons_ne_nil _ _

theorem lowerIn_fails (hp : ∀ c, p c = true → IsUncased c) {c : Char} (hc : p c = false)
    (before after : List Char) : ∀ d ∈ lowerIn before c after, p d = false := by
  have hnone : (lowerIn before c after).countP p = 0 := by
    rw [countP_lowerIn hp, List.countP_singleton, hc]
    rfl
  simpa [List.countP_eq_zero] using hnone

theorem head?_lowerAfter_any (hp : ∀ c, p c = true → IsUncased c) (h : text.head?.any p = false)
    (before : List Char) : (lowerAfter before text).head?.any p = false := by
  cases text with
  | nil => rfl
  | cons c text =>
      have hfails := lowerIn_fails hp h before text
      obtain ⟨d, others, heq⟩ := List.exists_cons_of_ne_nil (lowerIn_ne_nil before c text)
      rw [lowerAfter, heq]
      exact hfails d (heq ▸ List.mem_cons_self)

theorem getLast?_lowerAfter_any (hp : ∀ c, p c = true → IsUncased c)
    (h : text.getLast?.any p = false) (before : List Char) :
    (lowerAfter before text).getLast?.any p = false := by
  induction text generalizing before with
  | nil => rfl
  | cons c text ih =>
      rw [lowerAfter]
      cases text with
      | nil =>
          rw [lowerAfter, List.append_nil]
          exact (Option.any_eq_false p _).mpr fun d hd =>
            lowerIn_fails hp h before [] d (List.mem_of_getLast? hd)
      | cons next text =>
          have hrest : lowerAfter (c :: before) (next :: text) ≠ [] := by
            rw [lowerAfter]
            exact List.append_ne_nil_of_left_ne_nil (lowerIn_ne_nil _ _ _) _
          obtain ⟨d, hd⟩ := Option.ne_none_iff_exists'.mp (mt List.getLast?_eq_none_iff.mp hrest)
          rw [List.getLast?_append, hd, Option.some_or, ← hd]
          exact ih h (c :: before)

/-- Text whose ends fail a predicate that only holds of characters without case is such a text in
lower case too. -/
theorem IsTrimmed.lowerAfter (hp : ∀ c, p c = true → IsUncased c) (h : IsTrimmed p text)
    (before : List Char) : IsTrimmed p (lowerAfter before text) where
  head := head?_lowerAfter_any hp h.head before
  last := getLast?_lowerAfter_any hp h.last before

end TableLineage.Text
