import TableLineage.Proofs.Sql.Masked

/-!
# Strings after letters

`LetteredString` lists the string literals that a letter can introduce, and how each is read.  Such
a string is read in the same way when comments after it are blanked (`letteredString_masked`), and
no letter begins to introduce a string when they are (`letteredString?_none_masked`).
-/

namespace TableLineage.Sql

/-! ## Strings -/

section Strings

variable {inside rest other : List Char} {lexeme : Lexeme} {more : Nat}

theorem quotedString_eq_ok {opening : Nat} {quote : Char} {escapes : Bool} {body : List Char}
    (h : Reading.quotedString opening quote escapes body = .ok (lexeme, more)) :
    ∃ position, closingQuote? quote (if escapes then some '\\' else none) body = some position ∧
      lexeme = .token .other ∧ more = opening + position + 1 := by
  unfold Reading.quotedString at h
  split at h
  · next position hposition =>
      simp only [Reading.other, Except.ok.injEq, Prod.mk.injEq] at h
      exact ⟨position, hposition, h.1.symm, h.2.symm⟩
  · cases h

theorem quotedString_append {opening : Nat} {quote : Char} {escapes : Bool}
    (hother : other.head? = some quote → rest.head? = some quote)
    (h : Reading.quotedString opening quote escapes (inside ++ rest) = .ok (lexeme, more))
    (hle : more ≤ opening + inside.length) :
    Reading.quotedString opening quote escapes (inside ++ other) = .ok (lexeme, more) := by
  obtain ⟨position, hposition, rfl, rfl⟩ := quotedString_eq_ok h
  unfold Reading.quotedString
  rw [closingQuote?_append hother hposition (by omega)]
  rfl

theorem escapedString_eq_ok {body : List Char}
    (h : Reading.escapedString body = .ok (lexeme, more)) :
    ∃ count, escapedStringEnd? 0 body = some count ∧ lexeme = .token .other ∧
      more = 1 + count := by
  unfold Reading.escapedString at h
  split at h
  · next count hcount =>
      simp only [Reading.other, Except.ok.injEq, Prod.mk.injEq] at h
      exact ⟨count, hcount, h.1.symm, h.2.symm⟩
  · cases h

theorem escapedString_append (hother : other.head? = some '\'' → rest.head? = some '\'')
    (h : Reading.escapedString (inside ++ rest) = .ok (lexeme, more))
    (hle : more ≤ 1 + inside.length) :
    Reading.escapedString (inside ++ other) = .ok (lexeme, more) := by
  obtain ⟨count, hcount, rfl, rfl⟩ := escapedString_eq_ok h
  unfold Reading.escapedString
  rw [escapedStringEnd?_append hother hcount (by omega)]
  rfl

theorem unicodeString_eq_ok {body : List Char}
    (h : Reading.unicodeString body = .ok (lexeme, more)) :
    ∃ count, unicodeStringEnd 3 0 body = .ok count ∧ lexeme = .token .other ∧
      more = count - 1 := by
  unfold Reading.unicodeString at h
  split at h
  · next count hcount =>
      simp only [Reading.other, Except.ok.injEq, Prod.mk.injEq] at h
      exact ⟨count, hcount, h.1.symm, h.2.symm⟩
  · cases h

theorem unicodeString_append (hother : other.head? = some '\'' → rest.head? = some '\'')
    (h : Reading.unicodeString (inside ++ rest) = .ok (lexeme, more))
    (hle : more ≤ 2 + inside.length) :
    Reading.unicodeString (inside ++ other) = .ok (lexeme, more) := by
  obtain ⟨count, hcount, rfl, rfl⟩ := unicodeString_eq_ok h
  unfold Reading.unicodeString
  rw [unicodeStringEnd_append hother hcount (by omega)]
  rfl

theorem delimitedString_eq_ok {letters body : List Char}
    (h : Reading.delimitedString letters body = .ok (lexeme, more)) :
    ∃ count, delimitedStringEnd letters body = .ok count ∧ lexeme = .token .other ∧
      more = letters.length + count := by
  unfold Reading.delimitedString at h
  split at h
  · next count hcount =>
      simp only [Reading.other, Except.ok.injEq, Prod.mk.injEq] at h
      exact ⟨count, hcount, h.1.symm, h.2.symm⟩
  · cases h

theorem pos_of_delimitedStringEnd {letters body : List Char} {count : Nat}
    (h : delimitedStringEnd letters body = .ok count) : 0 < count := by
  cases body with
  | nil => cases h
  | cons c body =>
      rw [delimitedStringEnd_cons] at h
      split at h
      · cases h
      · split at h
        · obtain rfl := Except.ok.inj h
          exact Nat.succ_pos _
        · cases h

theorem delimitedString_append {letters : List Char}
    (h : Reading.delimitedString letters (inside ++ rest) = .ok (lexeme, more))
    (hle : more ≤ letters.length + inside.length) (other : List Char) :
    Reading.delimitedString letters (inside ++ other) = .ok (lexeme, more) := by
  obtain ⟨count, hcount, rfl, rfl⟩ := delimitedString_eq_ok h
  have hpos := pos_of_delimitedStringEnd hcount
  have hne : inside ≠ [] := by
    rintro rfl
    simp at hle
    omega
  unfold Reading.delimitedString
  rw [delimitedStringEnd_append hcount (by omega) other hne]
  rfl

section RawStrings

variable (quote : Char)

theorem rawString_singleton :
    Reading.rawString quote [quote] = .error ⟨.unterminatedString, 1⟩ := by
  simp [Reading.rawString, List.isPrefixOf, Reading.quotedString, closingQuote?_nil]

theorem rawString_of_ne {c : Char} (h : c ≠ quote) (text : List Char) :
    Reading.rawString quote (quote :: c :: text) =
      Reading.quotedString 1 quote false (c :: text) := by
  simp [Reading.rawString, List.isPrefixOf, h.symm]

theorem rawString_double {text : List Char} (h : text.head? ≠ some quote) :
    Reading.rawString quote (quote :: quote :: text) = .other 2 := by
  cases text with
  | nil => simp [Reading.rawString, List.isPrefixOf]
  | cons c text =>
      have hne : quote ≠ c := by
        rintro rfl
        exact h rfl
      simp [Reading.rawString, List.isPrefixOf, hne]

theorem rawString_triple (text : List Char) :
    Reading.rawString quote (quote :: quote :: quote :: text) =
      match afterDelimiter? [quote, quote, quote] text with
      | some position => .other (3 + position)
      | none => .error ⟨.unterminatedString, 1⟩ := by
  have hstarts : [quote, quote, quote].isPrefixOf (quote :: quote :: quote :: text) = true := by
    simp [List.isPrefixOf]
  unfold Reading.rawString
  exact if_pos hstarts

end RawStrings

theorem three_le_of_rawString_triple {quote : Char} {text : List Char}
    (hhead : text.head? = some quote)
    (h : Reading.rawString quote (quote :: quote :: text) = .ok (lexeme, more)) : 3 ≤ more := by
  obtain ⟨text, rfl⟩ : ∃ tail, text = quote :: tail := by
    cases text with
    | nil => cases hhead
    | cons d tail =>
        rw [List.head?_cons, Option.some.injEq] at hhead
        exact ⟨tail, by rw [hhead]⟩
  rw [rawString_triple] at h
  split at h
  · obtain ⟨-, rfl⟩ := Prod.mk.inj (Except.ok.inj h)
    omega
  · cases h

theorem two_le_of_rawString {quote : Char} {text : List Char}
    (h : Reading.rawString quote (quote :: text) = .ok (lexeme, more)) : 2 ≤ more := by
  cases text with
  | nil => simp [rawString_singleton] at h
  | cons c text =>
      by_cases hc : c = quote
      · subst hc
        by_cases hhead : text.head? = some c
        · have hthree := three_le_of_rawString_triple hhead h
          omega
        · rw [rawString_double c hhead] at h
          obtain ⟨-, rfl⟩ := Prod.mk.inj (Except.ok.inj h)
          exact Nat.le_refl 2
      · rw [rawString_of_ne quote hc] at h
        obtain ⟨position, -, -, rfl⟩ := quotedString_eq_ok h
        omega

theorem rawString_append {quote : Char}
    (hother : other.head? = some quote → rest.head? = some quote)
    (h : Reading.rawString quote (quote :: (inside ++ rest)) = .ok (lexeme, more))
    (hle : more ≤ inside.length + 1) :
    Reading.rawString quote (quote :: (inside ++ other)) = .ok (lexeme, more) := by
  cases inside with
  | nil =>
      -- the string would end with its first quote
      have htwo := two_le_of_rawString h
      simp at hle
      omega
  | cons c inside =>
      rw [List.length_cons] at hle
      rw [List.cons_append] at h ⊢
      by_cases hc : c = quote
      · subst hc
        cases inside with
        | nil =>
            -- the empty string, which a third quote would not end here
            have hhead : rest.head? ≠ some c := by
              intro hhead
              have hthree := three_le_of_rawString_triple hhead h
              simp at hle
              omega
            rw [List.nil_append, rawString_double c hhead] at h
            rw [List.nil_append, rawString_double c fun hquote => hhead (hother hquote), h]
        | cons d inside =>
            rw [List.cons_append] at h ⊢
            by_cases hd : d = c
            · subst hd
              rw [rawString_triple] at h ⊢
              split at h
              · next position hposition =>
                  obtain ⟨rfl, rfl⟩ := Prod.mk.inj (Except.ok.inj h)
                  rw [List.length_cons] at hle
                  rw [afterDelimiter?_append hposition (by omega) other]
                  rfl
              · cases h
            · have hhead : ∀ text : List Char, (d :: text).head? ≠ some c := by simpa using hd
              rw [rawString_double c (hhead _)] at h ⊢
              exact h
      · rw [rawString_of_ne quote hc, ← List.cons_append] at h ⊢
        exact quotedString_append hother h (by rw [List.length_cons]; omega)

end Strings

/-! ## Strings introduced by letters -/

section Lettered

variable (dialect : Dialect) (c : Char) (body : List Char)

theorem letteredString?_quote :
    letteredString? dialect c ('\'' :: body) =
      if c.toLower = 'n' then
        some (.quotedString 1 '\'' dialect.quoteRules.backslashEscapes body)
      else if c.toLower = 'x' then some (.quotedString 1 '\'' true body)
      else if dialect ≠ .generic then none
      else if c.toLower = 'b' then some (.quotedString 1 '\'' false body)
      else if c.toLower = 'r' then some (.rawString '\'' ('\'' :: body))
      else if c.toLower = 'q' then some (.delimitedString [c] body)
      else if c.toLower = 'e' then some (.escapedString body)
      else none := rfl

theorem letteredString?_doubleQuote :
    letteredString? dialect c ('"' :: body) =
      if dialect ≠ .generic then none
      else if c.toLower = 'b' then some (.quotedString 1 '"' false body)
      else if c.toLower = 'r' then some (.rawString '"' ('"' :: body))
      else none := rfl

theorem letteredString?_second {d : Char} (hquote : d ≠ '\'') (hdouble : d ≠ '"') :
    letteredString? dialect c (d :: '\'' :: body) =
      if dialect ≠ .generic then none
      else if c.toLower = 'n' ∧ d.toLower = 'q' then some (.delimitedString [c, d] body)
      else if c.toLower = 'u' ∧ d = '&' then some (.unicodeString body)
      else none := by
  unfold letteredString?
  split <;> simp_all

theorem letteredString?_none {text : List Char} (hquote : text.head? ≠ some '\'')
    (hdouble : text.head? ≠ some '"') (hsecond : text.tail.head? ≠ some '\'') :
    letteredString? dialect c text = none := by
  unfold letteredString?
  split <;> simp_all

end Lettered

/-- The string literals that a letter introduces, and how each is read. -/
inductive LetteredString (dialect : Dialect) (c : Char) : List Char → Reading → Prop
  | national (hletter : c.toLower = 'n') (body : List Char) :
      LetteredString dialect c ('\'' :: body)
        (.quotedString 1 '\'' dialect.quoteRules.backslashEscapes body)
  | hex (hletter : c.toLower = 'x') (body : List Char) :
      LetteredString dialect c ('\'' :: body) (.quotedString 1 '\'' true body)
  | bytes (hdialect : dialect = .generic) (hletter : c.toLower = 'b') {quote : Char}
      (hquote : quote = '\'' ∨ quote = '"') (body : List Char) :
      LetteredString dialect c (quote :: body) (.quotedString 1 quote false body)
  | raw (hdialect : dialect = .generic) (hletter : c.toLower = 'r') {quote : Char}
      (hquote : quote = '\'' ∨ quote = '"') (body : List Char) :
      LetteredString dialect c (quote :: body) (.rawString quote (quote :: body))
  | delimited (hdialect : dialect = .generic) (hletter : c.toLower = 'q') (body : List Char) :
      LetteredString dialect c ('\'' :: body) (.delimitedString [c] body)
  | escaped (hdialect : dialect = .generic) (hletter : c.toLower = 'e') (body : List Char) :
      LetteredString dialect c ('\'' :: body) (.escapedString body)
  | nationalDelimited (hdialect : dialect = .generic) (hletter : c.toLower = 'n') {d : Char}
      (hsecond : d.toLower = 'q') (body : List Char) :
      LetteredString dialect c (d :: '\'' :: body) (.delimitedString [c, d] body)
  | unicode (hdialect : dialect = .generic) (hletter : c.toLower = 'u') (body : List Char) :
      LetteredString dialect c ('&' :: '\'' :: body) (.unicodeString body)

section Lettered

variable {dialect : Dialect} {c : Char} {text : List Char} {reading : Reading}

theorem letteredString_of_eq_some (h : letteredString? dialect c text = some reading) :
    LetteredString dialect c text reading := by
  -- the first quote may be single or double, or come after a second letter
  by_cases hquote : text.head? = some '\''
  · obtain ⟨body, rfl⟩ := List.head?_eq_some_iff.mp hquote
    rw [letteredString?_quote] at h
    split_ifs at h with hn hx hdialect hb hr hq he <;> obtain rfl := Option.some.inj h
    · exact .national hn body
    · exact .hex hx body
    · exact .bytes (not_not.mp hdialect) hb (.inl rfl) body
    · exact .raw (not_not.mp hdialect) hr (.inl rfl) body
    · exact .delimited (not_not.mp hdialect) hq body
    · exact .escaped (not_not.mp hdialect) he body
  · by_cases hdouble : text.head? = some '"'
    · obtain ⟨body, rfl⟩ := List.head?_eq_some_iff.mp hdouble
      rw [letteredString?_doubleQuote] at h
      split_ifs at h with hdialect hb hr <;> obtain rfl := Option.some.inj h
      · exact .bytes (not_not.mp hdialect) hb (.inr rfl) body
      · exact .raw (not_not.mp hdialect) hr (.inr rfl) body
    · by_cases hsecond : text.tail.head? = some '\''
      · obtain ⟨body, htail⟩ := List.head?_eq_some_iff.mp hsecond
        obtain ⟨d, tail, rfl⟩ : ∃ d tail, text = d :: tail := by
          cases text with
          | nil => cases htail
          | cons d tail => exact ⟨d, tail, rfl⟩
        obtain rfl : tail = '\'' :: body := htail
        rw [letteredString?_second dialect c body (by simpa using hquote)
          (by simpa using hdouble)] at h
        split_ifs at h with hdialect hq hu <;> obtain rfl := Option.some.inj h
        · exact .nationalDelimited (not_not.mp hdialect) hq.1 hq.2 body
        · obtain ⟨hu, rfl⟩ := hu
          exact .unicode (not_not.mp hdialect) hu body
      · rw [letteredString?_none dialect c hquote hdouble hsecond] at h
        cases h

theorem LetteredString.eq_some (h : LetteredString dialect c text reading) :
    letteredString? dialect c text = some reading := by
  cases h with
  | national hletter body => simp [letteredString?_quote, hletter]
  | hex hletter body => simp [letteredString?_quote, hletter]
  | bytes hdialect hletter hquote body =>
      rcases hquote with rfl | rfl <;>
        simp [letteredString?_quote, letteredString?_doubleQuote, hletter, hdialect]
  | raw hdialect hletter hquote body =>
      rcases hquote with rfl | rfl <;>
        simp [letteredString?_quote, letteredString?_doubleQuote, hletter, hdialect]
  | delimited hdialect hletter body => simp [letteredString?_quote, hletter, hdialect]
  | escaped hdialect hletter body => simp [letteredString?_quote, hletter, hdialect]
  -- the letter and the quote have a second letter between them
  | @nationalDelimited hdialect hletter d hsecond body =>
      have hquote : d ≠ '\'' := by
        rintro rfl
        exact absurd hsecond (by decide)
      have hdouble : d ≠ '"' := by
        rintro rfl
        exact absurd hsecond (by decide)
      rw [letteredString?_second dialect c body hquote hdouble]
      simp [hletter, hdialect, hsecond]
  | unicode hdialect hletter body =>
      rw [letteredString?_second dialect c body (by decide) (by decide)]
      simp [hletter, hdialect]

theorem letteredString?_eq_some_iff :
    letteredString? dialect c text = some reading ↔ LetteredString dialect c text reading :=
  ⟨letteredString_of_eq_some, LetteredString.eq_some⟩

end Lettered

theorem two_le_of_letteredString {dialect : Dialect} {c : Char} {text : List Char}
    {reading : Reading} {lexeme : Lexeme} {more : Nat}
    (h : LetteredString dialect c text reading) (hreading : reading = .ok (lexeme, more)) :
    2 ≤ more := by
  cases h with
  | national | hex | bytes =>
      obtain ⟨position, -, -, rfl⟩ := quotedString_eq_ok hreading
      omega
  | raw => exact two_le_of_rawString hreading
  | delimited | nationalDelimited =>
      obtain ⟨count, hcount, -, rfl⟩ := delimitedString_eq_ok hreading
      have hpos := pos_of_delimitedStringEnd hcount
      simp only [List.length_cons, List.length_nil]
      omega
  | escaped =>
      obtain ⟨count, hcount, -, rfl⟩ := escapedString_eq_ok hreading
      have hpos := lt_of_escapedStringEnd? hcount
      omega
  | unicode =>
      obtain ⟨count, hcount, -, rfl⟩ := unicodeString_eq_ok hreading
      have hpos := lt_of_unicodeStringEnd hcount
      omega

section Lexemes

variable {dialect : Dialect} {c : Char} {rest : List Char} {lexeme : Lexeme} {more : Nat}

theorem lexeme_of_rawString {quote : Char} (h : Reading.rawString quote rest = .ok (lexeme, more)) :
    lexeme = .token .other := by
  unfold Reading.rawString at h
  split_ifs at h
  · split at h
    · exact (Prod.mk.inj (Except.ok.inj h)).1.symm
    · cases h
  · exact (Prod.mk.inj (Except.ok.inj h)).1.symm
  · obtain ⟨-, -, hlexeme, -⟩ := quotedString_eq_ok h
    exact hlexeme

theorem lexeme_of_letteredString (h : LetteredString dialect c rest (.ok (lexeme, more))) :
    lexeme = .token .other := by
  generalize hreading : (Except.ok (lexeme, more) : Reading) = reading at h
  cases h with
  | national | hex | bytes =>
      obtain ⟨-, -, hlexeme, -⟩ := quotedString_eq_ok hreading.symm
      exact hlexeme
  | raw => exact lexeme_of_rawString hreading.symm
  | delimited | nationalDelimited =>
      obtain ⟨-, -, hlexeme, -⟩ := delimitedString_eq_ok hreading.symm
      exact hlexeme
  | escaped =>
      obtain ⟨-, -, hlexeme, -⟩ := escapedString_eq_ok hreading.symm
      exact hlexeme
  | unicode =>
      obtain ⟨-, -, hlexeme, -⟩ := unicodeString_eq_ok hreading.symm
      exact hlexeme

end Lexemes

section Lettered

variable {dialect : Dialect} {c : Char} {text other : List Char}

/-- No string begins at a letter because a comment after it is blanked. -/
theorem letteredString?_none_masked (h : Masked text other)
    (hnone : letteredString? dialect c text = none) : letteredString? dialect c other = none := by
  by_contra hsome
  obtain ⟨reading, hreading⟩ := Option.ne_none_iff_exists'.mp hsome
  have hnot : ∀ reading, ¬ LetteredString dialect c text reading := by
    intro reading hlettered
    rw [letteredString?_eq_some_iff.mpr hlettered] at hnone
    cases hnone
  -- a letter and a quote that the blanked text has stood in the text before
  cases letteredString?_eq_some_iff.mp hreading with
  | national hletter body =>
      obtain ⟨rest, rfl, -⟩ := h.exists_cons (by decide)
      exact hnot _ (.national hletter rest)
  | hex hletter body =>
      obtain ⟨rest, rfl, -⟩ := h.exists_cons (by decide)
      exact hnot _ (.hex hletter rest)
  | bytes hdialect hletter hquote body =>
      obtain ⟨rest, rfl, -⟩ := h.exists_cons (by rcases hquote with rfl | rfl <;> decide)
      exact hnot _ (.bytes hdialect hletter hquote rest)
  | raw hdialect hletter hquote body =>
      obtain ⟨rest, rfl, -⟩ := h.exists_cons (by rcases hquote with rfl | rfl <;> decide)
      exact hnot _ (.raw hdialect hletter hquote rest)
  | delimited hdialect hletter body =>
      obtain ⟨rest, rfl, -⟩ := h.exists_cons (by decide)
      exact hnot _ (.delimited hdialect hletter rest)
  | escaped hdialect hletter body =>
      obtain ⟨rest, rfl, -⟩ := h.exists_cons (by decide)
      exact hnot _ (.escaped hdialect hletter rest)
  | nationalDelimited hdialect hletter hsecond body =>
      have hspace : ∀ d : Char, d.toLower = 'q' → d ≠ ' ' := by
        rintro d hd rfl
        exact absurd hd (by decide)
      obtain ⟨rest, rfl, hrest⟩ := h.exists_cons (hspace _ hsecond)
      obtain ⟨rest, rfl, -⟩ := hrest.exists_cons (by decide)
      exact hnot _ (.nationalDelimited hdialect hletter hsecond rest)
  | unicode hdialect hletter body =>
      obtain ⟨rest, rfl, hrest⟩ := h.exists_cons (by decide)
      obtain ⟨rest, rfl, -⟩ := hrest.exists_cons (by decide)
      exact hnot _ (.unicode hdialect hletter rest)

/-- A string after a letter is read in the same way if it ends before what is masked. -/
theorem letteredString_masked {inside rest : List Char} {lexeme : Lexeme}
    (hmasked : Masked rest other)
    (h : LetteredString dialect c (inside ++ rest) (.ok (lexeme, inside.length))) :
    LetteredString dialect c (inside ++ other) (.ok (lexeme, inside.length)) := by
  -- the string takes two characters at least, so what picks its form stands inside
  have htwo := two_le_of_letteredString h rfl
  -- masking puts no quote behind the string that could lengthen it
  have hother : ∀ quote, quote ≠ ' ' → other.head? = some quote → rest.head? = some quote :=
    fun quote hquote => hmasked.head hquote
  obtain ⟨a, b, inside, rfl⟩ : ∃ a b tail, inside = a :: b :: tail := by
    cases inside with
    | nil => simp at htwo
    | cons a inside =>
        cases inside with
        | nil => simp at htwo
        | cons b tail => exact ⟨a, b, tail, rfl⟩
  have hlength : (a :: b :: inside).length = (b :: inside).length + 1 := rfl
  -- the form stays, so it is enough that what follows its opening quote is read alike
  suffices hsame : ∃ again, LetteredString dialect c (a :: (b :: inside ++ other)) again ∧
      again = .ok (lexeme, (a :: b :: inside).length) by
    obtain ⟨_, hagain, rfl⟩ := hsame
    exact hagain
  obtain ⟨reading, hreading⟩ : ∃ reading : Reading,
      reading = .ok (lexeme, (a :: b :: inside).length) := ⟨_, rfl⟩
  rw [List.cons_append, ← hreading] at h
  cases h with
  | national hletter body =>
      have hsame := quotedString_append (hother '\'' (by decide)) hreading (by omega)
      exact ⟨_, .national hletter _, hsame⟩
  | hex hletter body =>
      have hsame := quotedString_append (hother '\'' (by decide)) hreading (by omega)
      exact ⟨_, .hex hletter _, hsame⟩
  | bytes hdialect hletter hquote body =>
      have hspace : a ≠ ' ' := by rcases hquote with rfl | rfl <;> decide
      have hsame := quotedString_append (hother a hspace) hreading (by omega)
      exact ⟨_, .bytes hdialect hletter hquote _, hsame⟩
  | raw hdialect hletter hquote body =>
      have hspace : a ≠ ' ' := by rcases hquote with rfl | rfl <;> decide
      have hsame := rawString_append (hother a hspace) hreading (by omega)
      exact ⟨_, .raw hdialect hletter hquote _, hsame⟩
  | delimited hdialect hletter body =>
      -- what closes a delimited string is found inside, whatever comes behind
      have hsame := delimitedString_append hreading (Nat.le_of_eq (Nat.add_comm _ 1)) other
      exact ⟨_, .delimited hdialect hletter _, hsame⟩
  | escaped hdialect hletter body =>
      have hsame := escapedString_append (hother '\'' (by decide)) hreading (by omega)
      exact ⟨_, .escaped hdialect hletter _, hsame⟩
  | nationalDelimited hdialect hletter hsecond body =>
      have hsame := delimitedString_append hreading (Nat.le_of_eq (Nat.add_comm _ 2)) other
      exact ⟨_, .nationalDelimited hdialect hletter hsecond _, hsame⟩
  | unicode hdialect hletter body =>
      have hsame := unicodeString_append (hother '\'' (by decide)) hreading (by simp; omega)
      exact ⟨_, .unicode hdialect hletter _, hsame⟩

end Lettered

end TableLineage.Sql
