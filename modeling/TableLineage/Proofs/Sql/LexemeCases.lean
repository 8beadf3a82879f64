import TableLineage.Proofs.Sql.LetteredStrings

/-!
# The kinds of lexemes

`LexemeAt` lists the kinds of lexemes and how each is read, one constructor for each branch of
`lexemeAt` (`lexemeAt_eq_iff`).  The conditions of a constructor tell it apart from the others, so
that a fact about the lexeme at a character is proved kind by kind.
-/

namespace TableLineage.Sql

section

variable {dialect : Dialect} {lexeme : Lexeme} {more : Nat}

/-! ## Quoted names and dollar strings -/

theorem quotedName_eq_ok {mark : QuoteMark} {text : List Char} {more : Nat}
    (h : quotedName mark text = .ok (lexeme, more)) :
    ∃ position, closingQuote? mark.closing none text = some position ∧
      lexeme = .token (.word (String.ofList (undoubled mark.closing (text.take position)))
        (some mark)) ∧ more = position + 1 := by
  unfold quotedName at h
  split at h
  · next position hposition =>
      obtain ⟨rfl, rfl⟩ := Prod.mk.inj (Except.ok.inj h)
      exact ⟨position, hposition, rfl, rfl⟩
  · cases h

theorem isTagCharacter_eq_false {c : Char} (h : c = ' ' ∨ c = '-' ∨ c = '/' ∨ c = '$') :
    (Text.isLetterOrNumeral c || c == '_') = false := by
  rcases h with rfl | rfl | rfl | rfl <;> decide

/-- The characters of the text that may stand in a tag between dollar signs. -/
def tagOf (text : List Char) : List Char :=
  text.takeWhile fun c => Text.isLetterOrNumeral c || c == '_'

theorem dollarAt_of_tag {text : List Char} (h : text.head? ≠ some '$') :
    dollarAt text =
      if text[(tagOf text).length]? = some '$' then
        match afterDelimiter? ('$' :: tagOf text ++ ['$'])
          (text.drop ((tagOf text).length + 1)) with
        | some position => Reading.other ((tagOf text).length + 1 + position)
        | none => .error ⟨.unterminatedTaggedString, text.length + 1⟩
      else
        Reading.other (tagOf text).length := by
  unfold dollarAt
  exact if_neg h

/-- After its first dollar sign a dollar string has a tag, a second sign, and goes on to the next
occurrence of both signs with the tag.  Without a second sign the tag is a placeholder. -/
theorem dollarAt_eq_ok_iff {text : List Char} {more : Nat} :
    dollarAt text = .ok (lexeme, more) ↔
      lexeme = .token .other ∧
        ((text[(tagOf text).length]? = some '$' ∧
            ∃ position, afterDelimiter? ('$' :: tagOf text ++ ['$'])
              (text.drop ((tagOf text).length + 1)) = some position ∧
              more = (tagOf text).length + 1 + position) ∨
          (text[(tagOf text).length]? ≠ some '$' ∧ more = (tagOf text).length)) := by
  by_cases hdollar : text.head? = some '$'
  · obtain ⟨body, rfl⟩ := List.head?_eq_some_iff.mp hdollar
    unfold dollarAt
    have htag : tagOf ('$' :: body) = [] := by
      simp only [tagOf, List.takeWhile_cons, isTagCharacter_eq_false (c := '$') (by simp)]
      rfl
    simp only [List.head?_cons, if_true, htag, List.length_nil, List.getElem?_cons_zero,
      true_and, not_true_eq_false, ne_eq, false_and, or_false, List.tail_cons, Nat.zero_add,
      List.drop_succ_cons, List.drop_zero, List.nil_append, List.cons_append]
    cases afterDelimiter? ['$', '$'] body with
    | none => simp
    | some position => simp [Reading.other, eq_comm]
  · -- behind the tag a second dollar opens a quoted text, else the dollar and the tag are a token
    rw [dollarAt_of_tag hdollar]
    split
    · next hsecond =>
        cases afterDelimiter? ('$' :: tagOf text ++ ['$'])
          (text.drop ((tagOf text).length + 1)) with
        | none => simp [hsecond]
        | some position => simp [Reading.other, hsecond, eq_comm]
    · next hsecond => simp [Reading.other, hsecond, eq_comm]

/-! ## Signed words -/

/-- The words that a sign starts, and how each is read: the sign takes the next character into the
word whatever it is, with few exceptions. -/
inductive SignedWord (dialect : Dialect) : Char → List Char → Reading → Prop
  | hash (hdialect : dialect.hasSignedWords = true) {next : Char}
      (hnext : next ≠ '-' ∧ next ≠ '>' ∧ next ≠ ' ') (text : List Char) :
      SignedWord dialect '#' (next :: text) (wordFrom dialect ['#', next] text)
  | double (hdialect : dialect.hasSignedWords = true) {next : Char} (hnext : next ≠ ' ')
      (text : List Char) :
      SignedWord dialect '@' ('@' :: next :: text) (wordFrom dialect ['@', '@', next] text)
  | single (hdialect : dialect.hasSignedWords = true) {next : Char}
      (hnext : next ∉ ['@', '>', '?', ' ', '\'', '"', '\x60']) (text : List Char) :
      SignedWord dialect '@' (next :: text) (wordFrom dialect ['@', next] text)

theorem signedWord?_eq_some_iff {c : Char} {text : List Char} {reading : Reading} :
    signedWord? dialect c text = some reading ↔ SignedWord dialect c text reading := by
  constructor
  · intro h
    unfold signedWord? at h
    cases hdialect : dialect.hasSignedWords with
    | false => simp [hdialect] at h
    | true =>
        simp only [hdialect, Bool.not_true, Bool.false_eq_true, if_false] at h
        split at h
        · -- a hash, a double at sign, a single one
          split_ifs at h with hnext
          obtain rfl := Option.some.inj h
          rw [not_or, not_or] at hnext
          exact .hash hdialect hnext _
        · split_ifs at h with hnext
          obtain rfl := Option.some.inj h
          exact .double hdialect hnext _
        · split_ifs at h with hnext
          obtain rfl := Option.some.inj h
          exact .single hdialect (by simpa using hnext) _
        · cases h
  · intro h
    cases h with
    | hash hdialect hnext text => simp [signedWord?, hdialect, hnext]
    | double hdialect hnext text => simp [signedWord?, hdialect, hnext]
    | @single hdialect next hnext text =>
        simp only [List.mem_cons, List.not_mem_nil, or_false, not_or] at hnext
        unfold signedWord?
        rw [if_neg (by simp [hdialect])]
        split <;> simp_all

theorem wordFrom_eq_ok {lead text : List Char} {more : Nat}
    (h : wordFrom dialect lead text = .ok (lexeme, more)) :
    lexeme = .token (.word (String.ofList (lead ++ text.takeWhile dialect.continuesWord)) none) ∧
      more = lead.length - 1 + (text.takeWhile dialect.continuesWord).length := by
  obtain ⟨rfl, rfl⟩ := Prod.mk.inj (Except.ok.inj h)
  exact ⟨rfl, rfl⟩

/-! ## Any lexeme -/

/-- The lexeme that starts with a character which is no blank, no quote, no punctuation, and starts
no string, number or comment. -/
def wordOrOperator (dialect : Dialect) (c : Char) (text : List Char) : Reading :=
  if let some reading := signedWord? dialect c text then
    reading
  else if let some length := operatorLength? dialect (c :: text) then
    .other (length - 1)
  else if dialect.startsWord c then
    wordFrom dialect [c] text
  else if c = '?' then
    .other (text.takeWhile Text.isNumeral).length
  else if c = '$' then
    dollarAt text
  else if Text.isBlank c then
    .ok (.gap, 0)
  else
    .other 0

end

/-- A character starts no lexeme of the other kinds. -/
structure StartsWordOrOperator (dialect : Dialect) (c : Char) (rest : List Char) : Prop where
  notBlank : c ∉ [' ', '\t', '\n', '\r']
  notString : c ≠ '\'' ∧ letteredString? dialect c rest = none
  notName : dialect.quoteMark? c = none
  notNumber : ¬ (c = '.' ∨ c.isDigit = true)
  notPunctuation : punctuation? c = none
  notLine : startsLineComment dialect c rest = false
  notBlock : ¬ (c = '/' ∧ rest.head? = some '*')

/-- The kinds of lexemes, and how each is read. -/
inductive LexemeAt (dialect : Dialect) (afterWord : Bool) : Char → List Char → Reading → Prop
  | blank {c : Char} (hc : c ∈ [' ', '\t', '\n']) (rest : List Char) :
      LexemeAt dialect afterWord c rest (.ok (.gap, 0))
  | carriageReturn (rest : List Char) :
      LexemeAt dialect afterWord '\r' rest (.ok (.gap, if rest.head? = some '\n' then 1 else 0))
  | lettered {c : Char} {rest : List Char} {reading : Reading}
      (h : LetteredString dialect c rest reading) : LexemeAt dialect afterWord c rest reading
  | string (rest : List Char) :
      LexemeAt dialect afterWord '\'' rest
        (.quotedString 0 '\'' dialect.quoteRules.backslashEscapes rest)
  | name {c : Char} {mark : QuoteMark} (hmark : dialect.quoteMark? c = some mark)
      (rest : List Char) : LexemeAt dialect afterWord c rest (quotedName mark rest)
  | underscore {rest : List Char} (hrest : rest.head? = some '_') :
      LexemeAt dialect afterWord '.' rest
        (if afterWord then .ok (.token .period, 0) else .error ⟨.strayUnderscore, 0⟩)
  | number {c : Char} {rest : List Char} (hc : c = '.' ∨ c.isDigit = true)
      (hunderscore : ¬ (c = '.' ∧ rest.head? = some '_')) :
      LexemeAt dialect afterWord c rest (numberAt (c :: rest))
  | punctuation {c : Char} {token : Token} (hmark : dialect.quoteMark? c = none)
      (htoken : punctuation? c = some token) (rest : List Char) :
      LexemeAt dialect afterWord c rest (.ok (.token token, 0))
  | lineComment {c : Char} {rest : List Char} (h : startsLineComment dialect c rest = true) :
      LexemeAt dialect afterWord c rest (.ok (.gap, lineLength rest))
  | blockComment {rest : List Char} (hrest : rest.head? = some '*') :
      LexemeAt dialect afterWord '/' rest (Sql.blockComment dialect rest.tail)
  | wordOrOperator {c : Char} {rest : List Char} (h : StartsWordOrOperator dialect c rest) :
      LexemeAt dialect afterWord c rest (Sql.wordOrOperator dialect c rest)

section

variable {dialect : Dialect} {afterWord : Bool} {c : Char} {rest : List Char}

theorem lexemeAt_cases (dialect : Dialect) (afterWord : Bool) (c : Char) (rest : List Char) :
    LexemeAt dialect afterWord c rest (lexemeAt dialect afterWord c rest) := by
  unfold lexemeAt
  -- in the order in which the reader tries the forms, each without those before it
  by_cases hblank : c = ' ' ∨ c = '\t' ∨ c = '\n'
  · rw [if_pos hblank]
    exact .blank (by simpa using hblank) rest
  rw [if_neg hblank]
  by_cases hreturn : c = '\r'
  · subst hreturn
    rw [if_pos rfl]
    exact .carriageReturn rest
  rw [if_neg hreturn]
  cases hlettered : letteredString? dialect c rest with
  | some reading => exact .lettered (letteredString?_eq_some_iff.mp hlettered)
  | none =>
      simp only
      by_cases hquote : c = '\''
      · subst hquote
        rw [if_pos rfl]
        exact .string rest
      rw [if_neg hquote]
      cases hmark : dialect.quoteMark? c with
      | some mark => exact .name hmark rest
      | none =>
          simp only
          by_cases hunderscore : c = '.' ∧ rest.head? = some '_'
          · obtain ⟨rfl, hhead⟩ := hunderscore
            rw [if_pos ⟨rfl, hhead⟩]
            exact .underscore hhead
          rw [if_neg hunderscore]
          by_cases hnumber : c = '.' ∨ c.isDigit = true
          · rw [if_pos hnumber]
            exact .number hnumber hunderscore
          rw [if_neg hnumber]
          cases hpunctuation : punctuation? c with
          | some token => exact .punctuation hmark hpunctuation rest
          | none =>
              simp only
              cases hline : startsLineComment dialect c rest with
              | true => exact .lineComment hline
              | false =>
                  by_cases hblock : c = '/' ∧ rest.head? = some '*'
                  · obtain ⟨rfl, hhead⟩ := hblock
                    rw [if_neg Bool.false_ne_true, if_pos ⟨rfl, hhead⟩]
                    exact .blockComment hhead
                  · rw [if_neg Bool.false_ne_true, if_neg hblock]
                    refine .wordOrOperator ⟨?_, ⟨hquote, hlettered⟩, hmark, hnumber,
                      hpunctuation, hline, hblock⟩
                    simpa [hreturn] using hblank

theorem toLower_mem_of_letteredString {reading : Reading}
    (h : LetteredString dialect c rest reading) :
    c.toLower ∈ ['n', 'x', 'b', 'r', 'q', 'e', 'u'] := by
  cases h with
  | national hletter | hex hletter | bytes _ hletter | raw _ hletter | delimited _ hletter
  | escaped _ hletter | nationalDelimited _ hletter | unicode _ hletter =>
      rw [hletter]
      decide

theorem letteredString?_eq_none (h : c.toLower ∉ ['n', 'x', 'b', 'r', 'q', 'e', 'u']) :
    letteredString? dialect c rest = none := by
  by_contra hsome
  obtain ⟨reading, hreading⟩ := Option.ne_none_iff_exists'.mp hsome
  exact h (toLower_mem_of_letteredString (letteredString?_eq_some_iff.mp hreading))

theorem mem_of_quoteMark? {mark : QuoteMark} (h : dialect.quoteMark? c = some mark) :
    c ∈ ['"', '\x60', '['] := by
  unfold Dialect.quoteMark? at h
  split_ifs at h with hdouble hbacktick hbracket
  · simp [hdouble]
  · simp [hbacktick.1]
  · simp [hbracket.1]

theorem mem_of_punctuation? {token : Token} (h : punctuation? c = some token) :
    c ∈ ['(', ')', ',', ';', '[', ']'] := by
  unfold punctuation? at h
  split at h <;> first | decide | cases h

theorem mem_of_startsLineComment (h : startsLineComment dialect c rest = true) :
    c ∈ ['-', '#', '/'] := by
  simp only [startsLineComment, Bool.or_eq_true, Bool.and_eq_true, beq_iff_eq] at h
  rcases h with ⟨rfl, -⟩ | ⟨-, rfl | ⟨rfl, -⟩⟩ <;> decide

theorem toLower_of_isDigit (h : c.isDigit = true) : c.toLower = c := by
  unfold Char.toLower
  have hA : 'A'.val.toNat = 65 := rfl
  simp only [Char.isDigit, Bool.and_eq_true, decide_eq_true_eq, ge_iff_le,
    UInt32.le_iff_toNat_le] at h
  rw [dif_neg]
  simp only [ge_iff_le, UInt32.le_iff_toNat_le]
  have hnine : '9'.val.toNat = 57 := rfl
  omega

/-- What starts a number starts nothing that is read before numbers. -/
theorem not_before_number (dialect : Dialect) (h : c = '.' ∨ c.isDigit = true) :
    c ∉ [' ', '\t', '\n', '\r'] ∧ c.toLower ∉ ['n', 'x', 'b', 'r', 'q', 'e', 'u'] ∧ c ≠ '\'' ∧
      dialect.quoteMark? c = none := by
  rcases h with rfl | hdigit
  · exact ⟨by decide, by decide, by decide, rfl⟩
  · have hne : ∀ cs : List Char, cs.all (fun d => !d.isDigit) = true → c ∉ cs := by
      intro cs hcs hmem
      have hnot := List.all_eq_true.mp hcs c hmem
      rw [hdigit] at hnot
      cases hnot
    have hmarks := hne ['"', '\x60', '['] (by decide)
    simp only [List.mem_cons, List.not_mem_nil, or_false, not_or] at hmarks
    refine ⟨hne _ (by decide), ?_, by simpa using hne ['\''] (by decide), ?_⟩
    · rw [toLower_of_isDigit hdigit]
      exact hne _ (by decide)
    · simp [Dialect.quoteMark?, hmarks]

/-- Marks and digits start no blank, no string after letters, and no quoted name. -/
theorem lexemeAt_of_notLetter (hblank : c ∉ [' ', '\t', '\n', '\r'])
    (hletter : c.toLower ∉ ['n', 'x', 'b', 'r', 'q', 'e', 'u']) :
    lexemeAt dialect afterWord c rest =
      if c = '\'' then .quotedString 0 c dialect.quoteRules.backslashEscapes rest
      else if let some mark := dialect.quoteMark? c then quotedName mark rest
      else if c = '.' ∧ rest.head? = some '_' then
        if afterWord then .ok (.token .period, 0) else .error ⟨.strayUnderscore, 0⟩
      else if c = '.' ∨ c.isDigit then numberAt (c :: rest)
      else if let some token := punctuation? c then .ok (.token token, 0)
      else if startsLineComment dialect c rest then .ok (.gap, lineLength rest)
      else if c = '/' ∧ rest.head? = some '*' then blockComment dialect rest.tail
      else wordOrOperator dialect c rest := by
  simp only [List.mem_cons, List.not_mem_nil, or_false, not_or] at hblank
  unfold lexemeAt
  rw [if_neg (by simp [hblank]), if_neg hblank.2.2.2]
  simp only [letteredString?_eq_none hletter]
  rfl

/-- The kinds of lexemes exclude each other. -/
theorem lexemeAt_eq {reading : Reading} (h : LexemeAt dialect afterWord c rest reading) :
    lexemeAt dialect afterWord c rest = reading := by
  -- each kind is known by its first characters, which no kind that is tried before it has
  cases h with
  | blank hc rest =>
      unfold lexemeAt
      rw [if_pos (by simpa using hc)]
  | carriageReturn rest => rfl
  | lettered h =>
      have hletter := toLower_mem_of_letteredString h
      have hblank : c ∉ [' ', '\t', '\n', '\r'] := by
        intro hmem
        simp only [List.mem_cons, List.not_mem_nil, or_false] at hmem
        rcases hmem with rfl | rfl | rfl | rfl <;> exact absurd hletter (by decide)
      simp only [List.mem_cons, List.not_mem_nil, or_false, not_or] at hblank
      unfold lexemeAt
      rw [if_neg (by simp [hblank]), if_neg hblank.2.2.2]
      simp only [letteredString?_eq_some_iff.mpr h]
  | string rest =>
      rw [lexemeAt_of_notLetter (by decide) (by decide)]
      rfl
  | name hmark rest =>
      have hc := mem_of_quoteMark? hmark
      simp only [List.mem_cons, List.not_mem_nil, or_false] at hc
      rw [lexemeAt_of_notLetter (by rcases hc with rfl | rfl | rfl <;> decide)
        (by rcases hc with rfl | rfl | rfl <;> decide),
        if_neg (by rcases hc with rfl | rfl | rfl <;> decide)]
      simp only [hmark]
  | underscore hrest =>
      rw [lexemeAt_of_notLetter (by decide) (by decide), if_neg (by decide)]
      show (if '.' = '.' ∧ rest.head? = some '_' then _ else _) = _
      rw [if_pos ⟨rfl, hrest⟩]
  | number hc hunderscore =>
      obtain ⟨hblank, hletter, hquote, hmark⟩ := not_before_number dialect hc
      rw [lexemeAt_of_notLetter hblank hletter, if_neg hquote]
      simp only [hmark]
      rw [if_neg hunderscore, if_pos hc]
  | punctuation hmark htoken rest =>
      have hc := mem_of_punctuation? htoken
      simp only [List.mem_cons, List.not_mem_nil, or_false] at hc
      rcases hc with rfl | rfl | rfl | rfl | rfl | rfl <;>
        (rw [lexemeAt_of_notLetter (by decide) (by decide), if_neg (by decide)]
         simp only [hmark, htoken]
         rfl)
  | lineComment h =>
      have hc := mem_of_startsLineComment h
      simp only [List.mem_cons, List.not_mem_nil, or_false] at hc
      rcases hc with rfl | rfl | rfl <;>
        (rw [lexemeAt_of_notLetter (by decide) (by decide), if_neg (by decide)]
         simp only [h]
         rfl)
  | blockComment hrest =>
      have hline : startsLineComment dialect '/' rest = false := by simp [startsLineComment, hrest]
      rw [lexemeAt_of_notLetter (by decide) (by decide), if_neg (by decide)]
      simp only [hline, hrest]
      rfl
  | wordOrOperator h =>
      have hblank := h.notBlank
      have hunderscore : ¬ (c = '.' ∧ rest.head? = some '_') :=
        fun hperiod => h.notNumber (.inl hperiod.1)
      simp only [List.mem_cons, List.not_mem_nil, or_false, not_or] at hblank
      unfold lexemeAt
      rw [if_neg (by simp [hblank]), if_neg hblank.2.2.2]
      simp only [h.notString.2]
      rw [if_neg h.notString.1]
      simp only [h.notName]
      rw [if_neg hunderscore, if_neg h.notNumber]
      simp only [h.notPunctuation, h.notLine]
      rw [if_neg Bool.false_ne_true, if_neg h.notBlock]
      rfl

/-! ## Block comments -/

theorem numberAt_ne_blockComment {text comment : List Char} {more : Nat} :
    numberAt text ≠ .ok (.blockComment comment, more) := by
  intro h
  unfold numberAt at h
  simp only at h
  split_ifs at h <;> cases h

theorem wordOrOperator_ne_blockComment {comment : List Char} {more : Nat} :
    wordOrOperator dialect c rest ≠ .ok (.blockComment comment, more) := by
  intro h
  unfold wordOrOperator at h
  split at h
  · next hsigned =>
      rw [h] at hsigned
      generalize hreading : (Except.ok (.blockComment comment, more) : Reading) = reading
        at hsigned
      cases signedWord?_eq_some_iff.mp hsigned <;> cases hreading
  split at h
  · cases h
  split_ifs at h
  · cases h
  · cases h
  · cases (dollarAt_eq_ok_iff.mp h).1
  · cases h
  · cases h

/-- Only a slash and a star start a block comment. -/
theorem head_of_blockComment {comment : List Char} {more : Nat}
    (h : lexemeAt dialect afterWord c rest = .ok (.blockComment comment, more)) :
    c = '/' ∧ rest.head? = some '*' := by
  have hcases := lexemeAt_cases dialect afterWord c rest
  rw [h] at hcases
  generalize hreading : (Except.ok (.blockComment comment, more) : Reading) = reading at hcases
  cases hcases with
  | blockComment hrest => exact ⟨rfl, hrest⟩
  | blank | carriageReturn | punctuation | lineComment => cases hreading
  | lettered hstring => cases lexeme_of_letteredString (hreading ▸ hstring)
  | string =>
      obtain ⟨-, -, hlexeme, -⟩ := quotedString_eq_ok hreading.symm
      cases hlexeme
  | name hmark =>
      obtain ⟨position, -, hlexeme, -⟩ := quotedName_eq_ok hreading.symm
      cases hlexeme
  | underscore =>
      split at hreading <;> cases hreading
  | number => exact absurd hreading.symm numberAt_ne_blockComment
  | wordOrOperator => exact absurd hreading.symm wordOrOperator_ne_blockComment

end

end TableLineage.Sql
