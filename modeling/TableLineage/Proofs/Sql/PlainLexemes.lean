import Mathlib.Data.List.TakeWhile
import TableLineage.Proofs.Sql.Divergence
import TableLineage.Proofs.Sql.LexemeCases

/-!
# Lexemes made of code

Words, numbers, placeholders and operators are covered by segments of code, one for each character,
as far as none of their characters starts a quote or a comment.  The dash of an exponent stands
before a digit; only the last character of an operator and the dollar signs of a word need a
condition.
-/

namespace TableLineage.Sql

section

variable {dialect : Dialect} {before : Option Char} {c : Char} {rest : List Char}
  {lexeme : Lexeme} {more : Nat}

/-! ## Characters of code -/

/-- A character that starts no quote, no comment and no dollar string is code. -/
theorem segmentAt_code (hquote : c ≠ '\'') (hmark : dialect.quoteMark? c = none)
    (hdollar : c ≠ '$') (hline : ¬ (c = '-' ∧ rest.head? = some '-'))
    (hblock : ¬ (c = '/' ∧ rest.head? = some '*')) :
    segmentAt dialect.quoteRules before c rest = (.code, 0) := by
  unfold Dialect.quoteMark? at hmark
  split_ifs at hmark with hdouble hbacktick hbracket
  simp [segmentAt, hquote, hdouble, hdollar, hline, hblock, hbacktick, hbracket]

theorem isQuiet_of_mem_takeWhile {p : Char → Bool} (hquiet : ∀ d, p d = true → isQuiet d = true)
    {text : List Char} : ∀ d ∈ text.takeWhile p, isQuiet d = true :=
  fun d hmem => hquiet d (List.mem_takeWhile_imp hmem)

/-- A lexeme is covered by segments of code if it takes a plain stretch. -/
theorem covers_of_isPrefix {taken : List Char} (hstart : taken <+: c :: rest)
    (hlength : taken.length = more + 1) (hplain : isPlain before taken = true) :
    covers dialect.quoteRules SegmentKind.isKept before 0 (more + 1) (c :: rest) = true := by
  obtain ⟨tail, htext⟩ := hstart
  rw [← htext, ← hlength]
  exact covers_of_isPlain hplain rfl tail

theorem covers_take (hle : more ≤ rest.length)
    (hplain : isPlain before (c :: rest.take more) = true) :
    covers dialect.quoteRules SegmentKind.isKept before 0 (more + 1) (c :: rest) = true := by
  have hstart : c :: rest.take more <+: c :: rest :=
    (List.prefix_cons_inj c).mpr (List.take_prefix more rest)
  refine covers_of_isPrefix hstart ?_ hplain
  rw [List.length_cons, List.length_take, Nat.min_eq_left hle]

/-! ## Words -/

theorem isQuiet_of_continuesWord (h : dialect.continuesWord c = true) (hdollar : c ≠ '$') :
    isQuiet c = true := by
  refine isQuiet_of_imp (p := fun c => dialect.continuesWord c && c != '$') ?_
    (by simp [h, hdollar])
  cases dialect <;> decide

/-- A word is plain if its characters go on words and a dollar sign follows only ASCII ones. -/
theorem isPlain_of_continuesWord {word : List Char} (h : word.all dialect.continuesWord = true)
    (hdollars : dollarsFollowWord before word = true) : isPlain before word = true := by
  induction word generalizing before with
  | nil => rfl
  | cons d word ih =>
      rw [List.all_cons, Bool.and_eq_true] at h
      rw [dollarsFollowWord, Bool.and_eq_true] at hdollars
      refine isPlain_cons_iff.mpr ⟨?_, ih h.2 hdollars.2⟩
      by_cases hd : d = '$'
      · subst hd
        have hbefore : endsWordBeforeDollar before = true := by simpa using hdollars.1
        exact .inr (.inr (.inr ⟨rfl, hbefore⟩))
      · exact .inl (isQuiet_of_continuesWord h.1 hd)

theorem covers_wordFrom {lead text : List Char} (htext : rest = lead ++ text)
    (h : wordFrom dialect (c :: lead) text = .ok (lexeme, more))
    (hplain : isPlain before (c :: rest.take more) = true) :
    covers dialect.quoteRules SegmentKind.isKept before 0 (more + 1) (c :: rest) = true := by
  refine covers_take ?_ hplain
  obtain ⟨-, rfl⟩ := wordFrom_eq_ok h
  have hle := (List.takeWhile_prefix (l := text) dialect.continuesWord).length_le
  rw [htext, List.length_append, List.length_cons]
  omega

/-! ## Numbers and placeholders -/

theorem isQuiet_of_isDigit (h : c.isDigit = true) : isQuiet c = true :=
  isQuiet_of_imp (p := Char.isDigit) (by decide) h

theorem isQuiet_of_isNumeral (h : Text.isNumeral c = true) : isQuiet c = true :=
  isQuiet_of_imp (p := Text.isNumeral) (by decide) h

theorem isQuiet_of_hexValue? (h : (Text.hexValue? c).isSome = true) : isQuiet c = true :=
  isQuiet_of_imp (p := fun c => (Text.hexValue? c).isSome) (by decide) h

theorem isPrefix_append {first second text : List Char} (hfirst : first <+: text)
    (hsecond : second <+: text.drop first.length) : first ++ second <+: text := by
  obtain ⟨tail, rfl⟩ := hfirst
  rw [List.drop_left] at hsecond
  exact (List.prefix_append_right_inj first).mpr hsecond

theorem isPrefix_filter_take_one (p : Char → Bool) (text : List Char) :
    (text.take 1).filter p <+: text := by
  cases text with
  | nil => exact List.prefix_rfl
  | cons d text =>
      by_cases hd : p d = true
      · simp [hd]
      · simp [hd]

theorem isPrefix_exponentOf (text : List Char) : exponentOf text <+: text := by
  cases text with
  | nil => exact List.prefix_rfl
  | cons d text =>
      unfold exponentOf
      simp only
      split_ifs
      · exact List.nil_prefix
      · refine (List.prefix_cons_inj d).mpr (isPrefix_append ?_ ?_)
        · exact isPrefix_filter_take_one _ text
        · exact List.takeWhile_prefix _
      · exact List.nil_prefix

theorem isQuiet_of_mem_digits (text : List Char) :
    ∀ d ∈ text.takeWhile Char.isDigit, isQuiet d = true :=
  isQuiet_of_mem_takeWhile fun _ => isQuiet_of_isDigit

/-- The dash of an exponent stands before a digit. -/
theorem isPlain_signedDigits {text sign digits : List Char}
    (hsign : sign = (text.take 1).filter fun s => s == '+' || s == '-')
    (hdigits : digits = (text.drop sign.length).takeWhile Char.isDigit) (hne : digits ≠ []) :
    isPlain before (sign ++ digits) = true := by
  have hplain : ∀ before, isPlain before digits = true := by
    intro before
    rw [hdigits]
    exact isPlain_of_isQuiet (isQuiet_of_mem_digits _)
  cases text with
  | nil => exact absurd (by rw [hdigits]; simp) hne
  | cons e text =>
      by_cases hplus : e = '+'
      · obtain rfl : sign = ['+'] := by rw [hsign, hplus]; rfl
        exact isPlain_append rfl hplain
      · by_cases hdash : e = '-'
        · obtain rfl : sign = ['-'] := by rw [hsign, hdash]; rfl
          obtain ⟨d, tail, rfl⟩ := List.exists_cons_of_ne_nil hne
          -- the dash is no comment, because a digit follows
          have hd : d ≠ '-' := by
            rintro rfl
            have hdigit : ('-' :: tail).head? = some '-' := rfl
            rw [hdigits] at hdigit
            exact absurd (List.mem_takeWhile_imp (List.mem_of_head? hdigit)) (by decide)
          rw [List.singleton_append]
          exact isPlain_cons_iff.mpr ⟨.inr (.inl ⟨rfl, d, tail, rfl, hd⟩), hplain _⟩
        · obtain rfl : sign = [] := by simp [hsign, hplus, hdash]
          exact hplain before

theorem isPlain_exponentOf (text : List Char) : isPlain before (exponentOf text) = true := by
  cases text with
  | nil => rfl
  | cons d text =>
      unfold exponentOf
      simp only
      split_ifs with hletter hdigits
      · rfl
      · have hquiet : isQuiet d = true := by rcases hletter with rfl | rfl <;> decide
        rw [List.cons_append]
        exact isPlain_cons_iff.mpr
          ⟨.inl hquiet, isPlain_signedDigits rfl rfl (by simpa using hdigits)⟩
      · rfl

theorem isQuiet_of_mem_point (text : List Char) :
    ∀ d ∈ (text.take 1).filter (· == '.'), isQuiet d = true := by
  intro d hmem
  obtain rfl : d = '.' := by simpa using (List.mem_filter.mp hmem).2
  decide

/-- Digits in base 16 are taken after the `0x` that starts them. -/
theorem exists_plain_of_base16 {text : List Char} (hwhole : ['0'] <+: text)
    (hx : (text.drop 1).head? = some 'x') {digits : List Char}
    (hdigits : digits = (text.drop 1).tail.takeWhile fun c => (Text.hexValue? c).isSome) :
    ∃ taken, taken <+: text ∧ taken.length = 1 + digits.length + 1 ∧
      ∀ before, isPlain before taken = true := by
  obtain ⟨tail, htail⟩ := List.head?_eq_some_iff.mp hx
  rw [htail, List.tail_cons] at hdigits
  refine ⟨['0'] ++ 'x' :: digits, isPrefix_append hwhole ?_, ?_, ?_⟩
  · rw [List.length_singleton, htail, hdigits]
    exact (List.prefix_cons_inj 'x').mpr (List.takeWhile_prefix _)
  · simp only [List.length_append, List.length_cons, List.length_nil]
    omega
  · intro before
    have hplain : ∀ before, isPlain before digits = true := by
      intro before
      rw [hdigits]
      exact isPlain_of_isQuiet (isQuiet_of_mem_takeWhile fun _ => isQuiet_of_hexValue?)
    show isPlain before (['0', 'x'] ++ digits) = true
    exact isPlain_append rfl hplain

/-- After its digits and its point a number takes an exponent and an `L`. -/
theorem exists_plain_of_mantissa {text mantissa written : List Char}
    (hstart : mantissa <+: text) (hquiet : ∀ d ∈ mantissa, isQuiet d = true)
    (hne : mantissa ≠ [])
    (hwritten : written = mantissa ++ exponentOf (text.drop mantissa.length)) :
    ∃ taken, taken <+: text ∧
      taken.length = written.length + (if text[written.length]? = some 'L' then 1 else 0) - 1 + 1 ∧
      ∀ before, isPlain before taken = true := by
  -- the digits, then the exponent, both at the start of the text
  have hwrittenStart : written <+: text := by
    rw [hwritten]
    exact isPrefix_append hstart (isPrefix_exponentOf _)
  have hplain : ∀ before, isPlain before written = true := by
    intro before
    rw [hwritten]
    exact isPlain_append (isPlain_of_isQuiet hquiet) fun before => isPlain_exponentOf _
  have hpos : 0 < written.length := by
    rw [hwritten, List.length_append]
    have := List.length_pos_of_ne_nil hne
    omega
  split
  · next hlong =>
      -- a long number takes the letter behind it along
      obtain ⟨tail, rfl⟩ := hwrittenStart
      rw [List.getElem?_append_right (Nat.le_refl _), Nat.sub_self, ← List.head?_eq_getElem?]
        at hlong
      obtain ⟨tail, rfl⟩ := List.head?_eq_some_iff.mp hlong
      refine ⟨written ++ ['L'], ⟨tail, by simp⟩, ?_, fun before => ?_⟩
      · rw [List.length_append, List.length_singleton]
        omega
      · exact isPlain_append (hplain before) fun before => rfl
  · exact ⟨written, hwrittenStart, by omega, hplain⟩

theorem mantissa_ne_nil {text : List Char} (hc : c = '.' ∨ c.isDigit = true)
    (htext : text = c :: rest) :
    text.takeWhile Char.isDigit ++
      ((text.drop (text.takeWhile Char.isDigit).length).take 1).filter (· == '.') ≠ [] := by
  subst htext
  rcases hc with rfl | hdigit
  · have hnone : ('.' :: rest).takeWhile Char.isDigit = [] := rfl
    rw [hnone]
    simp
  · simp [hdigit]

/-- A number takes digits, at most one point, an exponent and an `L`. -/
theorem exists_plain_of_numberAt {text : List Char} (hc : c = '.' ∨ c.isDigit = true)
    (htext : text = c :: rest) (h : numberAt text = .ok (lexeme, more)) :
    ∃ taken, taken <+: text ∧ taken.length = more + 1 ∧
      ∀ before, isPlain before taken = true := by
  have hmantissa := mantissa_ne_nil hc htext
  -- each part is a prefix of what is left and has quiet characters only; that is all the later
  -- parts need of it, so it can be forgotten what it is
  have hwhole := List.takeWhile_prefix (l := text) Char.isDigit
  have hwholeQuiet := isQuiet_of_mem_digits text
  unfold numberAt at h
  simp only at h
  generalize text.takeWhile Char.isDigit = whole at h hmantissa hwhole hwholeQuiet
  split at h
  · next hbase =>
      obtain ⟨-, rfl⟩ := Prod.mk.inj (Except.ok.inj h)
      obtain ⟨rfl, hx⟩ := hbase
      exact exists_plain_of_base16 hwhole hx rfl
  · have hpoint := isPrefix_filter_take_one (· == '.') (text.drop whole.length)
    have hpointQuiet := isQuiet_of_mem_point (text.drop whole.length)
    generalize ((text.drop whole.length).take 1).filter (· == '.') = point
      at h hmantissa hpoint hpointQuiet
    have hfraction := List.takeWhile_prefix
      (l := (text.drop whole.length).drop point.length) Char.isDigit
    have hfractionQuiet :=
      isQuiet_of_mem_digits ((text.drop whole.length).drop point.length)
    generalize ((text.drop whole.length).drop point.length).takeWhile Char.isDigit = fraction
      at h hfraction hfractionQuiet
    have hstart : whole ++ point ++ fraction <+: text := by
      rw [List.append_assoc]
      exact isPrefix_append hwhole (isPrefix_append hpoint hfraction)
    have hquiet : ∀ d ∈ whole ++ point ++ fraction, isQuiet d = true := by
      simp only [List.mem_append]
      rintro d ((hmem | hmem) | hmem)
      · exact hwholeQuiet d hmem
      · exact hpointQuiet d hmem
      · exact hfractionQuiet d hmem
    have hne : whole ++ point ++ fraction ≠ [] := by
      rw [ne_eq, List.append_eq_nil_iff, not_and]
      exact fun hnil => absurd hnil hmantissa
    generalize whole ++ point ++ fraction = mantissa at h hstart hquiet hne
    split at h
    · next hperiod =>
        obtain ⟨-, rfl⟩ := Prod.mk.inj (Except.ok.inj h)
        exact ⟨['.'], hperiod ▸ hstart, rfl, fun before => rfl⟩
    · obtain ⟨-, rfl⟩ := Prod.mk.inj (Except.ok.inj h)
      exact exists_plain_of_mantissa hstart hquiet hne rfl

theorem covers_numberAt (hc : c = '.' ∨ c.isDigit = true)
    (h : numberAt (c :: rest) = .ok (lexeme, more)) :
    covers dialect.quoteRules SegmentKind.isKept before 0 (more + 1) (c :: rest) = true := by
  obtain ⟨taken, hstart, hlength, hplain⟩ := exists_plain_of_numberAt hc rfl h
  exact covers_of_isPrefix hstart hlength (hplain before)

theorem covers_placeholder (hc : isQuiet c = true)
    (hmore : more = (rest.takeWhile Text.isNumeral).length) :
    covers dialect.quoteRules SegmentKind.isKept before 0 (more + 1) (c :: rest) = true := by
  have hstart : c :: rest.takeWhile Text.isNumeral <+: c :: rest :=
    (List.prefix_cons_inj c).mpr (List.takeWhile_prefix _)
  have hquiet : ∀ d ∈ rest.takeWhile Text.isNumeral, isQuiet d = true :=
    isQuiet_of_mem_takeWhile fun _ => isQuiet_of_isNumeral
  refine covers_of_isPrefix hstart ?_ (isPlain_cons_iff.mpr ⟨.inl hc, isPlain_of_isQuiet hquiet⟩)
  rw [hmore, List.length_cons]

/-! ## Operators -/

theorem isPlain_congr {text : List Char} (h : '$' ∉ text) (other : Option Char) :
    isPlain before text = isPlain other text := by
  cases text with
  | nil => rfl
  | cons d text =>
      rw [List.mem_cons, not_or] at h
      have hd : (d == '$') = false := beq_eq_false_iff_ne.mpr (Ne.symm h.1)
      rw [isPlain, isPlain, hd, Bool.false_and, Bool.false_and]

/-- Only the last character of an operator can start a comment. -/
theorem isPlain_operator (dialect : Dialect) :
    ∀ operator ∈ operators dialect, 2 ≤ operator.toList.length ∧ '$' ∉ operator.toList ∧
      (isPlain none operator.toList = true ∨ operator.toList.getLast? = some '-' ∨
        operator.toList.getLast? = some '/') := by
  cases dialect <;> decide

theorem covers_operator {length : Nat} (h : operatorLength? dialect (c :: rest) = some length)
    (hlast : length - 1 ≠ 0 → (c :: rest.take (length - 1)).getLast? ≠ some '-' ∧
      (c :: rest.take (length - 1)).getLast? ≠ some '/') :
    covers dialect.quoteRules SegmentKind.isKept before 0 (length - 1 + 1) (c :: rest) = true := by
  obtain ⟨operator, hoperator, rfl⟩ := Option.map_eq_some_iff.mp h
  have hfound := List.find?_some hoperator
  obtain ⟨htwo, hdollar, hplain⟩ :=
    isPlain_operator dialect operator (List.mem_of_find?_eq_some hoperator)
  have hstart := List.isPrefixOf_iff_prefix.mp hfound
  rw [← String.length_toList] at hlast ⊢
  generalize operator.toList = taken at hstart htwo hdollar hplain hlast
  have hlength : taken.length = taken.length - 1 + 1 := by omega
  -- the operator is the text of the lexeme, so its last character is known to be no mark
  have htaken : c :: rest.take (taken.length - 1) = taken := by
    rw [← List.take_succ_cons, ← hlength]
    exact (List.prefix_iff_eq_take.mp hstart).symm
  rw [htaken] at hlast
  obtain ⟨hdash, hslash⟩ := hlast (by omega)
  refine covers_of_isPrefix hstart hlength ?_
  -- operators hold no dollar sign, so it does not matter what stands before one
  rw [isPlain_congr hdollar none]
  exact hplain.resolve_right fun hmark => hmark.elim hdash hslash

end

end TableLineage.Sql
