import TableLineage.Proofs.Sql.Closing
import TableLineage.Sql.Lexeme

/-!
# Reading text whose comments are blanked

Of two texts the second masks the first if it agrees with the first up to the start of a comment,
where it has a space.  What follows that space is arbitrary.  Whatever reads characters of a kind
that starts no comment reads the same in both texts; this file says so for words and numbers.
-/

namespace TableLineage.Sql

/-- The second text agrees with the first up to the start of a comment, where it has a space. -/
inductive Masked : List Char → List Char → Prop
  | nil : Masked [] []
  | same (c : Char) {text other : List Char} (h : Masked text other) :
      Masked (c :: text) (c :: other)
  | dashes (text other : List Char) : Masked ('-' :: '-' :: text) (' ' :: other)
  | slash (text other : List Char) : Masked ('/' :: '*' :: text) (' ' :: other)

namespace Masked

variable {text other : List Char}

theorem append (inside : List Char) (h : Masked text other) :
    Masked (inside ++ text) (inside ++ other) := by
  induction inside with
  | nil => exact h
  | cons c inside ih => exact .same c ih

/-- Masking puts no character in front but a space. -/
theorem head (h : Masked text other) {c : Char} (hspace : c ≠ ' ')
    (hhead : other.head? = some c) : text.head? = some c := by
  cases h with
  | nil => cases hhead
  | same d _ => exact hhead
  | dashes | slash =>
      rw [List.head?_cons, Option.some.injEq] at hhead
      exact absurd hhead.symm hspace

/-- Masking takes no character from the front but a dash and a slash. -/
theorem head_eq (h : Masked text other) {c : Char} (hdash : c ≠ '-') (hslash : c ≠ '/')
    (hhead : text.head? = some c) : other.head? = some c := by
  cases h with
  | nil => cases hhead
  | same d _ => exact hhead
  | dashes =>
      rw [List.head?_cons, Option.some.injEq] at hhead
      exact absurd hhead.symm hdash
  | slash =>
      rw [List.head?_cons, Option.some.injEq] at hhead
      exact absurd hhead.symm hslash

theorem head_iff (h : Masked text other) {c : Char} (hspace : c ≠ ' ') (hdash : c ≠ '-')
    (hslash : c ≠ '/') : other.head? = some c ↔ text.head? = some c :=
  ⟨h.head hspace, h.head_eq hdash hslash⟩

theorem tail (h : Masked text other) {c : Char} (hdash : c ≠ '-') (hslash : c ≠ '/')
    (hhead : text.head? = some c) : Masked text.tail other.tail := by
  cases h with
  | nil => exact .nil
  | same d h => exact h
  | dashes =>
      rw [List.head?_cons, Option.some.injEq] at hhead
      exact absurd hhead.symm hdash
  | slash =>
      rw [List.head?_cons, Option.some.injEq] at hhead
      exact absurd hhead.symm hslash

theorem exists_cons {c : Char} (h : Masked text (c :: other)) (hspace : c ≠ ' ') :
    ∃ rest, text = c :: rest ∧ Masked rest other := by
  cases h with
  | same c h => exact ⟨_, rfl, h⟩
  | dashes | slash => exact absurd rfl hspace

variable {p : Char → Bool}

theorem takeWhile (h : Masked text other) (hspace : p ' ' = false) (hdash : p '-' = false)
    (hslash : p '/' = false) : other.takeWhile p = text.takeWhile p := by
  induction h with
  | nil => rfl
  | same c _ ih =>
      rw [List.takeWhile_cons, List.takeWhile_cons, ih]
  | dashes => simp [hspace, hdash]
  | slash => simp [hspace, hslash]

/-- Both texts go on masked after characters of a kind that starts no comment. -/
theorem drop_takeWhile (h : Masked text other) (hdash : p '-' = false) (hslash : p '/' = false) :
    Masked (text.drop (text.takeWhile p).length) (other.drop (text.takeWhile p).length) := by
  induction h with
  | nil => exact .nil
  | same c h ih =>
      rw [List.takeWhile_cons]
      split
      · exact ih
      · exact .same c h
  | dashes text other => simpa [hdash] using Masked.dashes text other
  | slash text other => simpa [hslash] using Masked.slash text other

end Masked

/-! ## Words and numbers -/

theorem continuesWord_eq_false (dialect : Dialect) {c : Char}
    (hmem : c ∈ [' ', '-', '/', '\'', '"', '\x60', '[']) : dialect.continuesWord c = false := by
  simp only [List.mem_cons, List.not_mem_nil, or_false] at hmem
  rcases hmem with rfl | rfl | rfl | rfl | rfl | rfl | rfl <;> cases dialect <;> decide

section

variable {text other : List Char}

theorem wordFrom_masked (dialect : Dialect) (lead : List Char) (h : Masked text other) :
    wordFrom dialect lead other = wordFrom dialect lead text := by
  unfold wordFrom
  rw [h.takeWhile] <;> exact continuesWord_eq_false dialect (by decide)

theorem point_masked (h : Masked text other) :
    (other.take 1).filter (· == '.') = (text.take 1).filter (· == '.') ∧
      Masked (text.drop ((text.take 1).filter (· == '.')).length)
        (other.drop ((text.take 1).filter (· == '.')).length) := by
  cases h with
  | nil => exact ⟨rfl, .nil⟩
  | same c h =>
      refine ⟨rfl, ?_⟩
      by_cases hpoint : c = '.'
      · subst hpoint
        exact h
      · simpa [hpoint] using Masked.same c h
  | dashes text other => exact ⟨rfl, .dashes text other⟩
  | slash text other => exact ⟨rfl, .slash text other⟩

/-- A sign and the digits after it are not masked: the dash of an exponent is not doubled. -/
theorem signedDigits_masked {sign digits : List Char} (h : Masked text other)
    (hsign : sign = (text.take 1).filter fun s => s == '+' || s == '-')
    (hdigits : digits = (text.drop sign.length).takeWhile Char.isDigit) :
    ((other.drop ((other.take 1).filter fun s => s == '+' || s == '-').length).takeWhile
        Char.isDigit = digits) ∧
      (digits ≠ [] → (other.take 1).filter (fun s => s == '+' || s == '-') = sign ∧
        Masked (text.drop (sign ++ digits).length) (other.drop (sign ++ digits).length)) := by
  subst hsign hdigits
  cases h with
  | nil => simp
  | same c h =>
      by_cases hsign : (c == '+' || c == '-') = true
      · simp only [List.take_succ_cons, List.take_zero, List.filter_cons, hsign, if_true,
          List.filter_nil, List.length_singleton, List.drop_succ_cons, List.drop_zero]
        refine ⟨h.takeWhile rfl rfl rfl, fun _ => ⟨trivial, ?_⟩⟩
        rw [List.singleton_append, List.length_cons, List.drop_succ_cons, List.drop_succ_cons]
        exact h.drop_takeWhile rfl rfl
      · simp only [List.take_succ_cons, List.take_zero, List.filter_cons, hsign, if_false,
          List.filter_nil, List.length_nil, List.drop_zero, Bool.false_eq_true]
        have hsame := Masked.same c h
        exact ⟨hsame.takeWhile rfl rfl rfl, fun _ => ⟨trivial, hsame.drop_takeWhile rfl rfl⟩⟩
  | dashes text other =>
      -- the first dash would be the sign, and no digit follows it
      have hnone : ('-' :: text).takeWhile Char.isDigit = [] := rfl
      refine ⟨?_, fun hne => absurd hnone hne⟩
      rfl
  | slash text other => exact ⟨rfl, fun hne => absurd rfl hne⟩

theorem exponentOf_masked (h : Masked text other) :
    exponentOf other = exponentOf text ∧
      Masked (text.drop (exponentOf text).length) (other.drop (exponentOf text).length) := by
  cases h with
  | nil => exact ⟨rfl, .nil⟩
  | dashes text other => exact ⟨rfl, .dashes text other⟩
  | slash text other => exact ⟨rfl, .slash text other⟩
  | @same c text other h =>
      by_cases hletter : c = 'e' ∨ c = 'E'
      · obtain ⟨hdigits, hsign⟩ := signedDigits_masked h rfl rfl
        rw [exponentOf, if_pos hletter, exponentOf, if_pos hletter]
        simp only [hdigits]
        -- without digits the letter is no exponent and nothing after it is taken
        split
        · exact ⟨rfl, .same c h⟩
        · next hne =>
            obtain ⟨hsame, hrest⟩ := hsign (by simpa [List.isEmpty_iff] using hne)
            exact ⟨by rw [hsame], hrest⟩
      · rw [exponentOf, if_neg hletter, exponentOf, if_neg hletter]
        exact ⟨rfl, .same c h⟩

/-- A number is read in the same way. -/
theorem numberAt_masked (h : Masked text other) : numberAt other = numberAt text := by
  have hwhole := h.takeWhile (p := Char.isDigit) rfl rfl rfl
  have hrest := h.drop_takeWhile (p := Char.isDigit) rfl rfl
  unfold numberAt
  -- part by part: once a part is known to be the same, its length is all that is left of it
  simp only [hwhole]
  generalize text.takeWhile Char.isDigit = whole at hrest ⊢
  have hx : (other.drop whole.length).head? = some 'x' ↔
      (text.drop whole.length).head? = some 'x' :=
    hrest.head_iff (by decide) (by decide) (by decide)
  simp only [hx]
  split
  · next hbase =>
      -- a number in base 16
      have htail := hrest.tail (by decide) (by decide) hbase.2
      rw [htail.takeWhile rfl rfl rfl]
  · obtain ⟨hpoint, hafterPoint⟩ := point_masked hrest
    simp only [hpoint]
    generalize ((text.drop whole.length).take 1).filter (· == '.') = point at hafterPoint ⊢
    have hfraction := hafterPoint.takeWhile (p := Char.isDigit) rfl rfl rfl
    have hafterFraction := hafterPoint.drop_takeWhile (p := Char.isDigit) rfl rfl
    simp only [hfraction]
    generalize ((text.drop whole.length).drop point.length).takeWhile Char.isDigit = fraction
      at hafterFraction ⊢
    have hdrop : ∀ cs : List Char, ((cs.drop whole.length).drop point.length).drop
        fraction.length = cs.drop (whole ++ point ++ fraction).length := by
      intro cs
      simp [List.drop_drop, Nat.add_assoc]
    rw [hdrop, hdrop] at hafterFraction
    generalize whole ++ point ++ fraction = mantissa at hafterFraction ⊢
    obtain ⟨hexponent, hafterExponent⟩ := exponentOf_masked hafterFraction
    simp only [hexponent]
    generalize exponentOf (text.drop mantissa.length) = exponent at hafterExponent ⊢
    have hlong : other[(mantissa ++ exponent).length]? = some 'L' ↔
        text[(mantissa ++ exponent).length]? = some 'L' := by
      have hhead := hafterExponent.head_iff (c := 'L') (by decide) (by decide) (by decide)
      rw [List.drop_drop, List.drop_drop, List.head?_drop, List.head?_drop] at hhead
      rw [List.length_append]
      exact hhead
    simp only [hlong]

end

end TableLineage.Sql
