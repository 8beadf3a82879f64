import TableLineage.Proofs.Sql.Blanking
import TableLineage.Proofs.Sql.QuotedLexemes

/-!
# Lexemes that segments keep step with

A token that has none of the forms of `Divergence` is cut into segments that end with it, whatever
stands around it (`isCovered_of_read`).  The proof goes through the readers of the tokenizer: each
kind of token starts with the characters that start a segment, and closes as that segment does, or
is made of characters that the stripper takes for code.
-/

namespace TableLineage.Sql

section

variable {dialect : Dialect} {before : Option Char} {c : Char} {rest : List Char}
  {lexeme : Lexeme} {more : Nat}

theorem form?_other_eq_none {piece : Piece} (h : piece.form? dialect .other = none) :
    closesItsOwnWay dialect piece.first piece.rest = false ∧
      (piece.isDollarString = true → piece.opensDollarString = true) ∧
      piece.endsInMark = false := by
  unfold Piece.form? at h
  simp only at h
  split_ifs at h with hletters hdollar hmark
  refine ⟨by simpa using hletters, ?_, by simpa using hmark⟩
  intro hstring
  simpa [hstring] using hdollar

theorem form?_word_eq_none {piece : Piece} {value : String}
    (h : piece.form? dialect (.word value none) = none) :
    isPlain piece.before piece.text = true := by
  unfold Piece.form? Piece.isTidyWord at h
  simp only at h
  split_ifs at h with htidy
  rw [Bool.and_eq_true] at htidy
  exact isPlain_of_continuesWord htidy.1 htidy.2

theorem covers_signedWord (h : SignedWord dialect c rest (.ok (lexeme, more)))
    (hplain : ∀ value, lexeme = .token (.word value none) →
      isPlain before (c :: rest.take more) = true) :
    covers dialect.quoteRules SegmentKind.isKept before 0 (more + 1) (c :: rest) = true := by
  generalize hreading : (Except.ok (lexeme, more) : Reading) = reading at h
  cases h with
  | @hash _ next _ text =>
      have hword := wordFrom_eq_ok hreading.symm
      exact covers_wordFrom rfl hreading.symm (hplain _ hword.1)
  | @double _ next _ text =>
      have hword := wordFrom_eq_ok hreading.symm
      exact covers_wordFrom rfl hreading.symm (hplain _ hword.1)
  | @single _ next _ text =>
      have hword := wordFrom_eq_ok hreading.symm
      exact covers_wordFrom rfl hreading.symm (hplain _ hword.1)

/-- The lexemes that `wordOrOperator` reads are made of characters of code, or are dollar
strings. -/
theorem isCovered_of_wordOrOperator {piece : Piece}
    (h : wordOrOperator dialect piece.first piece.rest = .ok (piece.lexeme, piece.more))
    (hform : ∀ token, piece.lexeme = .token token → piece.form? dialect token = none)
    (hcode : piece.first ≠ '$' → ∀ before,
      segmentAt dialect.quoteRules before piece.first piece.rest = (.code, 0)) :
    piece.isCovered dialect SegmentKind.isKept = true := by
  have hword : ∀ value, piece.lexeme = .token (.word value none) →
      isPlain piece.before (piece.first :: piece.rest.take piece.more) = true :=
    fun value hlexeme => form?_word_eq_none (hform _ hlexeme)
  have hother : piece.lexeme = .token .other → _ :=
    fun hlexeme => form?_other_eq_none (hform _ hlexeme)
  unfold wordOrOperator at h
  unfold Piece.isCovered
  cases hsigned : signedWord? dialect piece.first piece.rest with
  | some reading =>
      simp only [hsigned] at h
      exact covers_signedWord (h ▸ signedWord?_eq_some_iff.mp hsigned) hword
  | none =>
      simp only [hsigned] at h
      cases hoperator : operatorLength? dialect (piece.first :: piece.rest) with
      | some length =>
          simp only [hoperator] at h
          obtain ⟨hlexeme, hmore⟩ := Prod.mk.inj (Except.ok.inj h)
          obtain ⟨-, -, hmark⟩ := hother hlexeme.symm
          -- only the last mark of an operator can start a quote or a comment with what follows
          rw [← hmore]
          apply covers_operator hoperator
          intro hne
          rw [hmore] at hne ⊢
          simpa [Piece.endsInMark, Piece.text, hne] using hmark
      | none =>
          simp only [hoperator] at h
          by_cases hstart : dialect.startsWord piece.first = true
          · rw [if_pos hstart] at h
            obtain ⟨hlexeme, -⟩ := wordFrom_eq_ok h
            exact covers_wordFrom rfl h (hword _ hlexeme)
          rw [if_neg hstart] at h
          by_cases hplaceholder : piece.first = '?'
          · rw [if_pos hplaceholder] at h
            obtain ⟨-, hmore⟩ := Prod.mk.inj (Except.ok.inj h)
            exact covers_placeholder (by rw [hplaceholder]; decide) hmore.symm
          rw [if_neg hplaceholder] at h
          by_cases hdollar : piece.first = '$'
          · rw [if_pos hdollar] at h
            obtain ⟨hlexeme, -⟩ := dollarAt_eq_ok_iff.mp h
            obtain ⟨-, hopens, -⟩ := hother hlexeme
            rw [hdollar]
            apply covers_dollarAt h
            intro hmem
            simpa [Piece.opensDollarString] using
              hopens (by simpa [Piece.isDollarString, hdollar] using hmem)
          rw [if_neg hdollar] at h
          -- what is left is a single character, a blank or not
          have hmore : piece.more = 0 := by
            split at h <;> exact (Prod.mk.inj (Except.ok.inj h)).2.symm
          rw [hmore]
          exact covers_cons_code (hcode hdollar _) rfl rfl

theorem not_dashes_of_startsLineComment (h : startsLineComment dialect c rest = false) :
    ¬ (c = '-' ∧ rest.head? = some '-') := by
  rintro ⟨rfl, hhead⟩
  simp [startsLineComment, hhead] at h

theorem isQuiet_of_blank (h : c ∈ [' ', '\t', '\n']) : isQuiet c = true :=
  isQuiet_of_imp (p := fun c => c ∈ [' ', '\t', '\n']) (by decide) (decide_eq_true h)

theorem covers_return (hmore : more = if rest.head? = some '\n' then 1 else 0) :
    covers dialect.quoteRules SegmentKind.isKept before 0 (more + 1) ('\r' :: rest) = true := by
  refine covers_cons_code (segmentAt_of_isQuiet (by decide)) rfl ?_
  split at hmore
  · next hhead =>
      obtain ⟨tail, rfl⟩ := List.head?_eq_some_iff.mp hhead
      rw [hmore]
      exact covers_cons_code (segmentAt_of_isQuiet (by decide)) rfl rfl
  · rw [hmore]
    rfl

/-- Segments end with a lexeme that is no comment and has none of the forms of `Divergence`, and
stripping keeps them. -/
theorem isCovered_of_read {piece : Piece}
    (h : lexemeAt dialect piece.afterWord piece.first piece.rest = .ok (piece.lexeme, piece.more))
    (hline : startsLineComment dialect piece.first piece.rest = false)
    (hblock : ¬ (piece.first = '/' ∧ piece.rest.head? = some '*'))
    (hform : ∀ token, piece.lexeme = .token token → piece.form? dialect token = none) :
    piece.isCovered dialect SegmentKind.isKept = true := by
  have hdashes := not_dashes_of_startsLineComment hline
  have hcases := lexemeAt_cases dialect piece.afterWord piece.first piece.rest
  rw [h] at hcases
  have hsingle : segmentAt dialect.quoteRules piece.before piece.first piece.rest = (.code, 0) →
      piece.more = 0 → piece.isCovered dialect SegmentKind.isKept = true := by
    intro hcode hmore
    rw [Piece.isCovered, hmore]
    exact covers_cons_code hcode rfl rfl
  generalize hfirst : piece.first = c at hcases
  generalize hreading : (Except.ok (piece.lexeme, piece.more) : Reading) = reading at hcases
  -- single characters are code, and every other kind of lexeme has a lemma of its own
  cases hcases with
  | blank hc =>
      obtain ⟨-, hmore⟩ := Prod.mk.inj (Except.ok.inj hreading)
      refine hsingle (segmentAt_of_isQuiet ?_) hmore
      rw [hfirst]
      exact isQuiet_of_blank hc
  | carriageReturn =>
      obtain ⟨-, hmore⟩ := Prod.mk.inj (Except.ok.inj hreading)
      rw [Piece.isCovered, hfirst]
      exact covers_return hmore
  | lettered hstring =>
      rw [← hreading, ← hfirst] at hstring
      obtain ⟨hletters, -⟩ := form?_other_eq_none (hform _ (lexeme_of_letteredString hstring))
      exact covers_letteredString hstring hletters
  | string =>
      rw [Piece.isCovered, hfirst]
      exact covers_singleQuote rfl hreading.symm
  | name hmark =>
      rw [Piece.isCovered, hfirst]
      exact covers_quotedName hmark hreading.symm
  | underscore hrest =>
      have hmore : piece.more = 0 := by
        split at hreading
        · exact (Prod.mk.inj (Except.ok.inj hreading)).2
        · cases hreading
      exact hsingle (segmentAt_of_isQuiet (by rw [hfirst]; decide)) hmore
  | number hc =>
      rw [Piece.isCovered, hfirst]
      exact covers_numberAt hc hreading.symm
  | punctuation hmark htoken =>
      obtain ⟨-, hmore⟩ := Prod.mk.inj (Except.ok.inj hreading)
      have hc := mem_of_punctuation? htoken
      rw [← hfirst] at hmark hc
      refine hsingle (segmentAt_code ?_ hmark ?_ hdashes hblock) hmore
      · intro hquote
        exact absurd (hquote ▸ hc) (by decide)
      · intro hdollar
        exact absurd (hdollar ▸ hc) (by decide)
  | lineComment hstart =>
      rw [← hfirst, hline] at hstart
      cases hstart
  | blockComment hrest => exact absurd ⟨hfirst, hrest⟩ hblock
  | wordOrOperator hstart =>
      rw [← hfirst] at hreading hstart
      apply isCovered_of_wordOrOperator hreading.symm hform
      intro hdollar before
      exact segmentAt_code hstart.notString.1 hstart.notName hdollar hdashes hblock

/-! ## The forms are all there are -/

theorem isHarmlessLine_of_read {piece : Piece}
    (h : lexemeAt dialect piece.afterWord piece.first piece.rest = .ok (piece.lexeme, piece.more))
    (hgap : piece.lexeme = .gap) (hmarked : piece.isMarkedLine = false) :
    piece.isHarmlessLine dialect = true := by
  have hfirst : piece.first ≠ '#' ∧ piece.first ≠ '/' := by
    simpa [Piece.isMarkedLine] using hmarked
  -- a gap that no other mark starts is a comment after two dashes, or a blank
  have hcovered : piece.isCovered dialect SegmentKind.isClosed = true := by
    cases hline : startsLineComment dialect piece.first piece.rest with
    | true =>
        have hdashes : piece.first = '-' ∧ piece.rest.head? = some '-' := by
          simpa [startsLineComment, hfirst] using hline
        rw [lexemeAt_eq (.lineComment hline)] at h
        obtain ⟨-, hmore⟩ := Prod.mk.inj (Except.ok.inj h)
        rw [Piece.isCovered, ← hmore, hdashes.1]
        exact covers_dashes hdashes.2
    | false =>
        have hblock : ¬ (piece.first = '/' ∧ piece.rest.head? = some '*') :=
          fun hstart => hfirst.2 hstart.1
        have hkept := isCovered_of_read h hline hblock (by simp [hgap])
        exact covers_mono (fun _ => isClosed_of_isKept) hkept
  simp [Piece.isHarmlessLine, hcovered, hfirst]

/-- The forms of `Divergence` are all there are: a lexeme has one exactly if the segments of the
text do not keep step with it. -/
theorem divergence?_eq_none_iff {piece : Piece}
    (h : lexemeAt dialect piece.afterWord piece.first piece.rest =
      .ok (piece.lexeme, piece.more)) :
    piece.divergence? dialect = none ↔ piece.isInStep dialect = true := by
  unfold Piece.divergence? Piece.isInStep
  cases hlexeme : piece.lexeme with
  | gap =>
      cases hmarked : piece.isMarkedLine with
      | true => simp
      | false => simp [isHarmlessLine_of_read h hlexeme hmarked]
  | blockComment comment => simp
  | token token =>
      have hline : startsLineComment dialect piece.first piece.rest = false := by
        by_contra hstart
        rw [lexemeAt_eq (.lineComment (Bool.not_eq_false _ ▸ hstart)), hlexeme] at h
        cases h
      have hblock : ¬ (piece.first = '/' ∧ piece.rest.head? = some '*') := by
        rintro ⟨hfirst, hrest⟩
        rw [hfirst, lexemeAt_eq (.blockComment hrest), hlexeme, blockComment] at h
        split at h <;> cases h
      simp only [ite_eq_left_iff]
      constructor
      · intro hform
        by_contra hcovered
        apply hcovered
        -- a token of no listed form is code for the stripper too
        apply isCovered_of_read h hline hblock
        intro found hfound
        rw [hlexeme] at hfound
        cases hfound
        exact hform hcovered
      · intro hcovered hnot
        exact absurd hcovered hnot

end

end TableLineage.Sql
