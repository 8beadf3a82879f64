import TableLineage.Proofs.Sql.LexemeCases

/-!
# Lexemes before blanked comments

A lexeme that is no comment is read in the same way when the comments after it are blanked
(`lexemeAt_masked`).  It ends before the first of them, and no lexeme looks past its end for
anything but characters that a space, a dash and a slash all differ from: the quote that would
double its closing quote, a letter or digit, the rest of an operator.
-/

namespace TableLineage.Sql

section

variable {dialect : Dialect} {inside rest other : List Char} {lexeme : Lexeme}

/-! ## Quoted names and dollar strings -/

theorem quotedName_masked {mark : QuoteMark} (hmasked : Masked rest other)
    (h : quotedName mark (inside ++ rest) = .ok (lexeme, inside.length)) :
    quotedName mark (inside ++ other) = .ok (lexeme, inside.length) := by
  obtain ⟨position, hposition, hlexeme, hlength⟩ := quotedName_eq_ok h
  have hother : other.head? = some mark.closing → rest.head? = some mark.closing :=
    hmasked.head (by cases mark <;> decide)
  have hle : position ≤ inside.length := by omega
  unfold quotedName
  rw [closingQuote?_append hother hposition (by omega)]
  simp only [hlexeme, hlength, List.take_append_of_le_length hle]

theorem tagOf_masked {text : List Char} (h : Masked text other) : tagOf other = tagOf text :=
  h.takeWhile (isTagCharacter_eq_false (by simp)) (isTagCharacter_eq_false (by simp))
    (isTagCharacter_eq_false (by simp))

theorem dollarAt_masked (hmasked : Masked rest other)
    (h : dollarAt (inside ++ rest) = .ok (lexeme, inside.length)) :
    dollarAt (inside ++ other) = .ok (lexeme, inside.length) := by
  have hall := hmasked.append inside
  have htag := tagOf_masked hall
  have hsecond : (inside ++ other)[(tagOf (inside ++ rest)).length]? = some '$' ↔
      (inside ++ rest)[(tagOf (inside ++ rest)).length]? = some '$' := by
    have hafter := hall.drop_takeWhile (p := fun c => Text.isLetterOrNumeral c || c == '_')
      (isTagCharacter_eq_false (by simp)) (isTagCharacter_eq_false (by simp))
    rw [← List.head?_drop, ← List.head?_drop]
    exact hafter.head_iff (by decide) (by decide) (by decide)
  rw [dollarAt_eq_ok_iff] at h ⊢
  rw [htag, ne_eq, hsecond]
  refine ⟨h.1, h.2.imp ?_ id⟩
  rintro ⟨hdollar, position, hposition, hlength⟩
  refine ⟨hdollar, position, ?_, hlength⟩
  have hle : (tagOf (inside ++ rest)).length + 1 ≤ inside.length := by omega
  rw [List.drop_append_of_le_length hle] at hposition ⊢
  exact afterDelimiter?_append hposition (by rw [List.length_drop]; omega) other

/-! ## Operators -/

theorem isPrefixOf_of_masked {text : List Char} (h : Masked text other) {operator : List Char}
    (hspace : ' ' ∉ operator) (hstart : operator.isPrefixOf other = true) :
    operator.isPrefixOf text = true := by
  induction h generalizing operator with
  | nil => exact hstart
  | same c _ ih =>
      cases operator with
      | nil => rfl
      | cons d operator =>
          rw [List.mem_cons, not_or] at hspace
          simp only [List.isPrefixOf, Bool.and_eq_true, beq_iff_eq] at hstart ⊢
          exact ⟨hstart.1, ih hspace.2 hstart.2⟩
  | dashes | slash =>
      cases operator with
      | nil => rfl
      | cons d operator =>
          simp only [List.isPrefixOf, Bool.and_eq_true, beq_iff_eq] at hstart
          exact absurd (hstart.1 ▸ List.mem_cons_self) hspace

theorem space_not_mem_operators (dialect : Dialect) :
    ∀ operator ∈ operators dialect, ' ' ∉ operator.toList := by
  cases dialect <;> decide

/-- The first element with a weaker property has the stronger one, so it is the first with that. -/
theorem find?_eq_some_of_imp {α : Type} {p q : α → Bool} {l : List α} {a : α}
    (himp : ∀ b ∈ l, q b = true → p b = true) (h : l.find? p = some a) (ha : q a = true) :
    l.find? q = some a := by
  induction l with
  | nil => cases h
  | cons b l ih =>
      rw [List.find?_cons] at h ⊢
      cases hp : p b with
      | true =>
          rw [hp] at h
          obtain rfl : b = a := by simpa using h
          rw [ha]
      | false =>
          have hq : q b = false := by
            cases hq : q b with
            | false => rfl
            | true => rw [himp b List.mem_cons_self hq] at hp; cases hp
          rw [hp] at h
          rw [hq]
          exact ih (fun d hmem => himp d (List.mem_cons_of_mem b hmem)) h

theorem operatorLength?_none_masked {text : List Char} (hmasked : Masked text other)
    (h : operatorLength? dialect text = none) : operatorLength? dialect other = none := by
  rw [operatorLength?, Option.map_eq_none_iff, List.find?_eq_none] at h ⊢
  intro operator hmem hstart
  exact h operator hmem
    (isPrefixOf_of_masked hmasked (space_not_mem_operators dialect operator hmem) hstart)

theorem operatorLength?_masked {length : Nat}
    (hmasked : Masked (inside ++ rest) (inside ++ other))
    (h : operatorLength? dialect (inside ++ rest) = some length) (hle : length ≤ inside.length) :
    operatorLength? dialect (inside ++ other) = some length := by
  rw [operatorLength?] at h ⊢
  obtain ⟨operator, hoperator, rfl⟩ := Option.map_eq_some_iff.mp h
  have hstart := List.find?_some hoperator
  rw [← String.length_toList] at hle
  have himp : ∀ found ∈ operators dialect, found.toList.isPrefixOf (inside ++ other) = true →
      found.toList.isPrefixOf (inside ++ rest) = true := fun found hmem hfound =>
    isPrefixOf_of_masked hmasked (space_not_mem_operators dialect found hmem) hfound
  have hsame : operator.toList.isPrefixOf (inside ++ other) = true := by
    rw [isPrefixOf_append hle] at hstart ⊢
    exact hstart
  rw [find?_eq_some_of_imp himp hoperator hsame]
  rfl

/-! ## Signed words -/

theorem signedWord_masked {c : Char} (hmasked : Masked rest other)
    (h : SignedWord dialect c (inside ++ rest) (.ok (lexeme, inside.length))) :
    SignedWord dialect c (inside ++ other) (.ok (lexeme, inside.length)) := by
  generalize htext : inside ++ rest = text at h
  generalize hreading : (Except.ok (lexeme, inside.length) : Reading) = reading at h ⊢
  cases h with
  | @hash hdialect next hnext text =>
      obtain ⟨-, hlength⟩ := wordFrom_eq_ok hreading.symm
      cases inside with
      | nil => simp at hlength; omega
      | cons d inside =>
          rw [List.cons_append] at htext
          obtain ⟨rfl, rfl⟩ := List.cons.inj htext
          rw [← wordFrom_masked dialect _ (hmasked.append inside)]
          exact .hash hdialect hnext _
  | @double hdialect next hnext text =>
      obtain ⟨-, hlength⟩ := wordFrom_eq_ok hreading.symm
      -- the word has at least two characters after its sign
      cases inside with
      | nil => simp at hlength; omega
      | cons d inside =>
          cases inside with
          | nil => simp at hlength; omega
          | cons e inside =>
              rw [List.cons_append, List.cons_append] at htext
              obtain ⟨rfl, htail⟩ := List.cons.inj htext
              obtain ⟨rfl, rfl⟩ := List.cons.inj htail
              rw [← wordFrom_masked dialect _ (hmasked.append inside)]
              exact .double hdialect hnext _
  | @single hdialect next hnext text =>
      obtain ⟨-, hlength⟩ := wordFrom_eq_ok hreading.symm
      cases inside with
      | nil => simp at hlength; omega
      | cons d inside =>
          rw [List.cons_append] at htext
          obtain ⟨rfl, rfl⟩ := List.cons.inj htext
          rw [← wordFrom_masked dialect _ (hmasked.append inside)]
          exact .single hdialect hnext _

/-- A sign that starts no word starts none when a comment after it is blanked. -/
theorem signedWord?_none_masked {c : Char} {text : List Char} (hmasked : Masked text other)
    (hnone : signedWord? dialect c text = none) : signedWord? dialect c other = none := by
  by_contra hsome
  obtain ⟨reading, hreading⟩ := Option.ne_none_iff_exists'.mp hsome
  have hnot : ∀ reading, ¬ SignedWord dialect c text reading := by
    intro reading hsigned
    rw [signedWord?_eq_some_iff.mpr hsigned] at hnone
    cases hnone
  -- the sign and what it takes into the word are no spaces, so they are not masked
  cases signedWord?_eq_some_iff.mp hreading with
  | hash hdialect hnext body =>
      obtain ⟨rest, rfl, -⟩ := hmasked.exists_cons hnext.2.2
      exact hnot _ (.hash hdialect hnext rest)
  | double hdialect hnext body =>
      obtain ⟨rest, rfl, hrest⟩ := hmasked.exists_cons (by decide)
      obtain ⟨rest, rfl, -⟩ := hrest.exists_cons hnext
      exact hnot _ (.double hdialect hnext rest)
  | single hdialect hnext body =>
      have hspace := hnext
      simp only [List.mem_cons, List.not_mem_nil, or_false, not_or] at hspace
      obtain ⟨rest, rfl, -⟩ := hmasked.exists_cons hspace.2.2.2.1
      exact hnot _ (.single hdialect hnext rest)

/-! ## The lexeme at a character -/

theorem startsLineComment_masked {c : Char} {text : List Char} (hmasked : Masked text other)
    (h : startsLineComment dialect c text = false) :
    startsLineComment dialect c other = false := by
  have hdash := hmasked.head (c := '-') (by decide)
  have hslash := hmasked.head (c := '/') (by decide)
  simp only [startsLineComment, Bool.or_eq_false_iff, Bool.and_eq_false_iff, beq_eq_false_iff_ne,
    ne_eq] at h ⊢
  exact ⟨h.1.imp_right (mt hdash), h.2.imp_right (And.imp_right (Or.imp_right (mt hslash)))⟩

theorem wordOrOperator_masked {c : Char} (hmasked : Masked rest other)
    (h : wordOrOperator dialect c (inside ++ rest) = .ok (lexeme, inside.length)) :
    wordOrOperator dialect c (inside ++ other) = .ok (lexeme, inside.length) := by
  have hall := hmasked.append inside
  unfold wordOrOperator at h ⊢
  cases hsigned : signedWord? dialect c (inside ++ rest) with
  | some reading =>
      simp only [hsigned] at h
      have hsame := signedWord_masked hmasked (h ▸ signedWord?_eq_some_iff.mp hsigned)
      simp only [signedWord?_eq_some_iff.mpr hsame]
  | none =>
      -- whatever is tried in vain before is tried in vain on the blanked text
      simp only [hsigned] at h
      simp only [signedWord?_none_masked hall hsigned]
      cases hoperator : operatorLength? dialect (c :: (inside ++ rest)) with
      | some length =>
          simp only [hoperator] at h
          obtain ⟨-, hlength⟩ := Prod.mk.inj (Except.ok.inj h)
          have hle : length ≤ (c :: inside).length := by rw [List.length_cons]; omega
          have hsame := operatorLength?_masked (hmasked.append (c :: inside)) hoperator hle
          rw [List.cons_append] at hsame
          simp only [hsame, h]
      | none =>
          simp only [hoperator] at h
          simp only [operatorLength?_none_masked (.same c hall) hoperator]
          by_cases hword : dialect.startsWord c = true
          · rw [if_pos hword] at h ⊢
            rw [wordFrom_masked dialect _ hall, h]
          rw [if_neg hword] at h ⊢
          by_cases hplaceholder : c = '?'
          · rw [if_pos hplaceholder] at h ⊢
            rw [hall.takeWhile (by decide) (by decide) (by decide), h]
          rw [if_neg hplaceholder] at h ⊢
          by_cases hdollar : c = '$'
          · rw [if_pos hdollar] at h ⊢
            exact dollarAt_masked hmasked h
          rw [if_neg hdollar] at h ⊢
          exact h

theorem startsWordOrOperator_masked {c : Char} {text : List Char} (hmasked : Masked text other)
    (h : StartsWordOrOperator dialect c text) : StartsWordOrOperator dialect c other where
  notBlank := h.notBlank
  notString := ⟨h.notString.1, letteredString?_none_masked hmasked h.notString.2⟩
  notName := h.notName
  notNumber := h.notNumber
  notPunctuation := h.notPunctuation
  notLine := startsLineComment_masked hmasked h.notLine
  notBlock := by
    rw [hmasked.head_iff (by decide) (by decide) (by decide)]
    exact h.notBlock

/-- A lexeme that is no comment is read in the same way when a comment after it is blanked. -/
theorem lexemeAt_masked {afterWord : Bool} {c : Char} (hmasked : Masked rest other)
    (h : lexemeAt dialect afterWord c (inside ++ rest) = .ok (lexeme, inside.length))
    (hline : startsLineComment dialect c (inside ++ rest) = false)
    (hblock : ¬ (c = '/' ∧ (inside ++ rest).head? = some '*')) :
    lexemeAt dialect afterWord c (inside ++ other) = .ok (lexeme, inside.length) := by
  have hall := hmasked.append inside
  have hcases := lexemeAt_cases dialect afterWord c (inside ++ rest)
  rw [h] at hcases
  apply lexemeAt_eq
  -- each way to start a lexeme is also one on the blanked text
  generalize hreading : (Except.ok (lexeme, inside.length) : Reading) = reading at hcases ⊢
  cases hcases with
  | blank hc => exact .blank hc _
  | carriageReturn =>
      have hhead : (inside ++ other).head? = some '\n' ↔ (inside ++ rest).head? = some '\n' :=
        hall.head_iff (by decide) (by decide) (by decide)
      simp only [← hhead]
      exact .carriageReturn _
  | lettered hstring =>
      rw [← hreading] at hstring ⊢
      exact .lettered (letteredString_masked hmasked hstring)
  | string =>
      have hsame := quotedString_append (hmasked.head (by decide)) hreading.symm (by omega)
      rw [← hreading, ← hsame]
      exact .string _
  | name hmark =>
      have hsame := quotedName_masked hmasked hreading.symm
      rw [← hreading, ← hsame]
      exact .name hmark _
  | underscore hrest =>
      exact .underscore (hall.head_eq (by decide) (by decide) hrest)
  | number hc hunderscore =>
      rw [← numberAt_masked (.same c hall)]
      refine .number hc ?_
      rw [hall.head_iff (by decide) (by decide) (by decide)]
      exact hunderscore
  | punctuation hmark htoken => exact .punctuation hmark htoken _
  | lineComment hstart =>
      rw [hline] at hstart
      cases hstart
  | blockComment hrest => exact absurd ⟨rfl, hrest⟩ hblock
  | wordOrOperator hstart =>
      have hsame := wordOrOperator_masked hmasked hreading.symm
      rw [← hreading, ← hsame]
      exact .wordOrOperator (startsWordOrOperator_masked hall hstart)

end

end TableLineage.Sql
