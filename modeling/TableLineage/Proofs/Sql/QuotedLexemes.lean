import TableLineage.Proofs.Sql.PlainLexemes

/-!
# Lexemes in quotes

Strings, quoted names and dollar strings are covered by a segment that opens and closes with them,
after segments of code for the letters in front.  The conditions are about the letters of a string
that let it close in its own way, and about the tag of a dollar string.
-/

namespace TableLineage.Sql

section

variable {dialect : Dialect} {before : Option Char} {c : Char} {rest : List Char}
  {lexeme : Lexeme} {more : Nat}

/-! ## Strings and quoted names -/

theorem covers_quoted {quote : Char} {escape : Option Char} {position : Nat}
    (h : closingQuote? quote escape rest = some position)
    (hsegment : segmentAt dialect.quoteRules before c rest =
      quotedOr c rest (closingQuote? quote escape rest)) :
    covers dialect.quoteRules SegmentKind.isKept before 0 (position + 1 + 1) (c :: rest) =
      true := by
  rw [h] at hsegment
  exact covers_segment hsegment rfl (closingQuote?_lt_length h)

theorem segmentAt_singleQuote :
    segmentAt dialect.quoteRules before '\'' rest =
      quotedOr '\'' rest
        (closingQuote? '\'' (if dialect.quoteRules.backslashEscapes then some '\\' else none)
          rest) := by
  simp [segmentAt]

/-- The first character of a quoted name starts a segment that closes with the same character. -/
theorem segmentAt_quoteMark {mark : QuoteMark} (h : dialect.quoteMark? c = some mark) :
    segmentAt dialect.quoteRules before c rest =
      quotedOr c rest (closingQuote? mark.closing none rest) := by
  unfold Dialect.quoteMark? at h
  split_ifs at h with hdouble hbacktick hbracket <;> obtain rfl := Option.some.inj h
  · subst hdouble
    simp [segmentAt, QuoteMark.closing]
  · obtain ⟨rfl, hrules⟩ := hbacktick
    simp [segmentAt, hrules, QuoteMark.closing]
  · obtain ⟨rfl, hrules⟩ := hbracket
    simp [segmentAt, hrules, QuoteMark.closing]

theorem covers_singleQuote {escapes : Bool}
    (hescapes : escapes = dialect.quoteRules.backslashEscapes)
    (h : Reading.quotedString 0 '\'' escapes rest = .ok (lexeme, more)) :
    covers dialect.quoteRules SegmentKind.isKept before 0 (more + 1) ('\'' :: rest) = true := by
  obtain ⟨position, hposition, -, rfl⟩ := quotedString_eq_ok h
  subst hescapes
  rw [Nat.zero_add]
  exact covers_quoted hposition segmentAt_singleQuote

theorem covers_quotedName {mark : QuoteMark} (hmark : dialect.quoteMark? c = some mark)
    (h : quotedName mark rest = .ok (lexeme, more)) :
    covers dialect.quoteRules SegmentKind.isKept before 0 (more + 1) (c :: rest) = true := by
  obtain ⟨position, hposition, -, rfl⟩ := quotedName_eq_ok h
  exact covers_quoted hposition (segmentAt_quoteMark hmark)

/-! ## Strings after letters -/

theorem isQuiet_of_toLower (h : c.toLower ∈ ['n', 'x', 'b', 'r', 'q', 'e', 'u']) :
    isQuiet c = true :=
  isQuiet_of_imp (p := fun c => c.toLower ∈ ['n', 'x', 'b', 'r', 'q', 'e', 'u']) (by decide)
    (decide_eq_true h)

/-- A letter does not change where the string after it closes. -/
theorem covers_letter_quotedString {quote : Char} {escapes : Bool} {body : List Char}
    (hquiet : isQuiet c = true)
    (hquote : (quote = '\'' ∧ escapes = dialect.quoteRules.backslashEscapes) ∨
      (quote = '"' ∧ escapes = false))
    (h : Reading.quotedString 1 quote escapes body = .ok (lexeme, more)) :
    covers dialect.quoteRules SegmentKind.isKept before 0 (more + 1) (c :: quote :: body) =
      true := by
  obtain ⟨position, hposition, -, rfl⟩ := quotedString_eq_ok h
  refine covers_cons_code (segmentAt_of_isQuiet hquiet) rfl ?_
  rw [show 1 + position + 1 = position + 1 + 1 by omega]
  rcases hquote with ⟨rfl, rfl⟩ | ⟨rfl, rfl⟩
  · exact covers_quoted hposition segmentAt_singleQuote
  · have hmark : dialect.quoteMark? '"' = some .double := rfl
    exact covers_quoted hposition (segmentAt_quoteMark hmark)

/-- A string with Unicode escapes closes where a string without letters does: no escape holds a
quote. -/
theorem covers_unicodeString {body : List Char} (hdialect : dialect = .generic)
    (hquiet : isQuiet c = true) (h : Reading.unicodeString body = .ok (lexeme, more)) :
    covers dialect.quoteRules SegmentKind.isKept before 0 (more + 1) (c :: '&' :: '\'' :: body) =
      true := by
  subst hdialect
  obtain ⟨count, hcount, -, rfl⟩ := unicodeString_eq_ok h
  obtain ⟨position, hposition, rfl⟩ := closingQuote?_of_unicodeStringEnd hcount
  -- the letter and the ampersand are code; the count includes them and the opening quote
  refine covers_cons_code (segmentAt_of_isQuiet hquiet) rfl ?_
  rw [show 3 + 0 + position + 1 - 1 = position + 1 + 1 + 1 by omega]
  refine covers_cons_code (segmentAt_of_isQuiet (by decide)) rfl ?_
  exact covers_quoted hposition segmentAt_singleQuote

/-- The strings after letters that close as a string without letters does. -/
theorem covers_letteredString (h : LetteredString dialect c rest (.ok (lexeme, more)))
    (hform : closesItsOwnWay dialect c rest = false) :
    covers dialect.quoteRules SegmentKind.isKept before 0 (more + 1) (c :: rest) = true := by
  generalize hreading : (Except.ok (lexeme, more) : Reading) = reading at h
  cases h with
  | national hletter body =>
      exact covers_letter_quotedString (isQuiet_of_toLower (by rw [hletter]; decide))
        (.inl ⟨rfl, rfl⟩) hreading.symm
  | hex hletter body =>
      have hescapes : dialect.quoteRules.backslashEscapes = true := by
        simpa [closesItsOwnWay, hletter] using hform
      exact covers_letter_quotedString (isQuiet_of_toLower (by rw [hletter]; decide))
        (.inl ⟨rfl, hescapes.symm⟩) hreading.symm
  | bytes hdialect hletter hquote body =>
      subst hdialect
      exact covers_letter_quotedString (isQuiet_of_toLower (by rw [hletter]; decide))
        (hquote.imp (fun h => ⟨h, rfl⟩) fun h => ⟨h, rfl⟩) hreading.symm
  -- these three close in their own way
  | raw _ hletter | delimited _ hletter | escaped _ hletter =>
      simp [closesItsOwnWay, hletter] at hform
  | @nationalDelimited _ hletter d hsecond body =>
      have hquote : d = '\'' := by simpa [closesItsOwnWay, hletter] using hform
      subst hquote
      exact absurd hsecond (by decide)
  | unicode hdialect hletter body =>
      exact covers_unicodeString hdialect (isQuiet_of_toLower (by rw [hletter]; decide))
        hreading.symm

/-! ## Dollar strings -/

theorem isLetterOrNumeral_of_isAlphanum (h : c.isAlphanum = true) :
    Text.isLetterOrNumeral c = true := by
  -- the tables start with the ASCII ranges
  have hletters : ∃ ranges, Text.letterRanges = (0x41, 0x5A) :: (0x61, 0x7A) :: ranges := ⟨_, rfl⟩
  have hnumerals : ∃ ranges, Text.numeralRanges = (0x30, 0x39) :: ranges := ⟨_, rfl⟩
  obtain ⟨letters, hletters⟩ := hletters
  obtain ⟨numerals, hnumerals⟩ := hnumerals
  unfold Char.isAlphanum Char.isAlpha Char.isUpper Char.isLower Char.isDigit at h
  simp only [Bool.or_eq_true, Bool.and_eq_true, decide_eq_true_eq, ge_iff_le,
    UInt32.le_iff_toNat_le] at h
  simp only [Text.isLetterOrNumeral, Text.isLetter, Text.isNumeral, hletters, hnumerals,
    Text.CodeRanges.contains, Char.toNat, Bool.or_eq_true]
  -- in the order of `Char.isAlphanum`: upper case, lower case, digits
  have hnumbers : (65 ≤ c.val.toNat ∧ c.val.toNat ≤ 90) ∨ (97 ≤ c.val.toNat ∧ c.val.toNat ≤ 122) ∨
      (48 ≤ c.val.toNat ∧ c.val.toNat ≤ 57) := by
    simpa [or_assoc] using h
  rcases hnumbers with hupper | hlower | hdigit
  · left
    rw [if_neg (by omega), if_pos (by omega)]
  · left
    rw [if_neg (by omega), if_neg (by omega), if_neg (by omega), if_pos (by omega)]
  · right
    rw [if_neg (by omega), if_pos (by omega)]

theorem isQuiet_of_tagCharacter (h : (Text.isLetterOrNumeral c || c == '_') = true) :
    isQuiet c = true :=
  isQuiet_of_imp (p := fun c => Text.isLetterOrNumeral c || c == '_') (by decide) h

/-- A tag that the stripper finds is the tag that the tokenizer finds. -/
theorem tagOf_eq_of_dollarTag? {tag : List Char} (h : dollarTag? rest = some tag) :
    tagOf rest = tag ∧ rest[tag.length]? = some '$' := by
  unfold dollarTag? at h
  simp only [Option.ite_none_left_eq_some, Option.ite_none_right_eq_some, Option.some.injEq] at h
  obtain ⟨-, hdollar, htag⟩ := h
  rw [htag] at hdollar
  refine ⟨?_, hdollar⟩
  have hstart := List.takeWhile_prefix (l := rest) fun c => c.isAlphanum || c == '_'
  have hall : ∀ d ∈ tag, (Text.isLetterOrNumeral d || d == '_') = true := by
    intro d hmem
    rw [← htag] at hmem
    have hd := List.mem_takeWhile_imp hmem
    rw [Bool.or_eq_true] at hd ⊢
    exact hd.imp_left isLetterOrNumeral_of_isAlphanum
  -- the stripper's tag ends at a dollar sign, where the tokenizer's ends too
  rw [htag] at hstart
  obtain ⟨tail, rfl⟩ := hstart
  rw [List.getElem?_append_right (Nat.le_refl _), Nat.sub_self, ← List.head?_eq_getElem?]
    at hdollar
  obtain ⟨tail, rfl⟩ := List.head?_eq_some_iff.mp hdollar
  rw [tagOf, List.takeWhile_append_of_pos hall, List.takeWhile_cons,
    isTagCharacter_eq_false (by simp)]
  simp

theorem segmentAt_dollarSign (hword : endsWordBeforeDollar before = false) :
    segmentAt dialect.quoteRules before '$' rest =
      match dollarTag? rest with
      | none => (.code, 0)
      | some tag =>
        match afterDelimiter? ('$' :: tag ++ ['$']) (rest.drop (tag.length + 1)) with
        | some position => (.quoted, tag.length + 1 + position)
        | none => (.openQuote '$', rest.length) := by
  have hrules : dialect.quoteRules.dollarStrings = true := by cases dialect <;> rfl
  have hopens : '$' = '$' ∧ dialect.quoteRules.dollarStrings = true ∧
      (!endsWordBeforeDollar before) = true :=
    ⟨rfl, hrules, by rw [hword]; decide⟩
  unfold segmentAt
  rw [if_neg (by simp), if_neg (by simp), if_neg (by simp), if_neg (by simp), if_neg (by simp)]
  exact if_pos hopens

/-- A dollar sign without a second one after its tag is code. -/
theorem segmentAt_placeholder (h : rest[(tagOf rest).length]? ≠ some '$') :
    segmentAt dialect.quoteRules before '$' rest = (.code, 0) := by
  cases hword : endsWordBeforeDollar before with
  | true => exact segmentAt_dollar hword
  | false =>
      rw [segmentAt_dollarSign hword]
      cases htag : dollarTag? rest with
      | none => rfl
      | some tag =>
          obtain ⟨hsame, hdollar⟩ := tagOf_eq_of_dollarTag? htag
          rw [hsame] at h
          exact absurd hdollar h

theorem covers_dollarAt (h : dollarAt rest = .ok (lexeme, more))
    (hopens : '$' ∈ rest.take more →
      endsWordBeforeDollar before = false ∧ (dollarTag? rest).isSome = true) :
    covers dialect.quoteRules SegmentKind.isKept before 0 (more + 1) ('$' :: rest) = true := by
  obtain ⟨-, ⟨hsecond, position, hposition, rfl⟩ | ⟨hnone, rfl⟩⟩ := dollarAt_eq_ok_iff.mp h
  · -- a second dollar: the quoted text is one segment of the stripper
    have hmem : '$' ∈ rest.take ((tagOf rest).length + 1 + position) := by
      refine List.mem_of_getElem? (i := (tagOf rest).length) ?_
      rw [List.getElem?_take_of_lt (by omega), hsecond]
    obtain ⟨hword, htag⟩ := hopens hmem
    obtain ⟨tag, htag⟩ := Option.isSome_iff_exists.mp htag
    obtain ⟨hsame, hdollar⟩ := tagOf_eq_of_dollarTag? htag
    rw [hsame] at hposition ⊢
    have hsegment : segmentAt dialect.quoteRules before '$' rest =
        (.quoted, tag.length + 1 + position) := by
      rw [segmentAt_dollarSign hword, htag]
      simp only [hposition]
    refine covers_segment hsegment rfl ?_
    have hle := afterDelimiter?_le_length hposition
    obtain ⟨hlt, -⟩ := List.getElem?_eq_some_iff.mp hdollar
    rw [List.length_drop] at hle
    omega
  · -- no second dollar: the dollar and the tag are code
    refine covers_cons_code (segmentAt_placeholder hnone) rfl ?_
    have hquiet : ∀ d ∈ tagOf rest, isQuiet d = true :=
      isQuiet_of_mem_takeWhile fun _ => isQuiet_of_tagCharacter
    obtain ⟨tail, htail⟩ : tagOf rest <+: rest := List.takeWhile_prefix _
    have hcovers : covers dialect.quoteRules SegmentKind.isKept (some '$') 0 (tagOf rest).length
        (tagOf rest ++ tail) = true := covers_of_isPlain (isPlain_of_isQuiet hquiet) rfl tail
    rw [htail] at hcovers
    exact hcovers

end

end TableLineage.Sql
