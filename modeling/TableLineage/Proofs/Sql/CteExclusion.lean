import TableLineage.Proofs.Sql.CteGrammar
import TableLineage.Proofs.Sql.EnclosingGroup
import TableLineage.Proofs.Sql.NameTokens
import TableLineage.Proofs.Text.LowerCaseForms
import TableLineage.Proofs.Text.Trimming
import TableLineage.Sql.Catalog

/-!
# References to a common table expression

In `WITH name AS ( body ) SELECT * FROM name` the last name is a reference to the common table
expression that the statement defines.  The reader of references finds it however the name is
spelled, and whatever the body holds as long as its parentheses match (`referenceAt_cteQuery`): the
last `FROM` is then at the top level.

Whether it is recognized as a reference to the common table expression depends on the spelling
(`resolve_cteQuery_iff`).  The scope holds the text of a word in lower case, and the reference is
looked up by its text in lower case and without outer blanks, so a quoted name with outer blanks is
missed.  A name whose brackets are tokens of their own is no word, and nothing is defined at all.
-/

namespace TableLineage.Sql

/-! ## The statement -/

/-- The spellings of a table's name in one part: a word that is no keyword, a quoted word that is
not blank, or words between brackets that are tokens of their own. -/
inductive IsSpelling : List Token → NamePart → Prop
  | word {value : String} (h : Keyword.ofWord? value = none) :
      IsSpelling [.word value none] ⟨value, false⟩
  | quoted {value : String} {mark : QuoteMark} (h : Text.trim value ≠ "") :
      IsSpelling [.word value (some mark)] ⟨value, true⟩
  | bracketed {inside : List Token} (hwords : ∀ token ∈ inside, token.isWord = true)
      (hne : inside ≠ []) :
      IsSpelling (.openBracket :: (inside ++ [.closeBracket]))
        ⟨" ".intercalate (inside.filterMap bracketWord?), true⟩

/-- The tokens of `WITH name AS ( body ) SELECT *`. -/
def cteHead (name body : List Token) : List Token :=
  .word "WITH" none ::
    (name ++ .word "AS" none :: (parenthesized body ++ [.word "SELECT" none, .other]))

/-- The tokens of `WITH name AS ( body ) SELECT * FROM name`. -/
def cteQuery (name body : List Token) : List Token :=
  cteHead name body ++ .word "FROM" none :: name

variable {name body tokens rest inside : List Token} {part : NamePart} {value : String}
  {quote : Option QuoteMark}

/-! ## The reference -/

theorem isWord_iff {token : Token} : token.isWord = true ↔
    ∃ value quote, token = .word value quote := by
  cases token <;> simp [Token.isWord]

theorem ne_closeBracket_of_isWord {token : Token} (h : token.isWord = true) :
    (token != .closeBracket) = true := by
  obtain ⟨value, quote, rfl⟩ := isWord_iff.mp h
  rfl

/-- A spelled name is read as a whole. -/
theorem namePart_of_isSpelling (h : IsSpelling name part) : namePart name = (some part, []) := by
  cases h with
  | word h => rfl
  | quoted h => rfl
  | @bracketed inside hwords hne =>
      have hstop : (inside ++ [Token.closeBracket]).takeWhile (· != Token.closeBracket) =
          inside := by
        rw [List.takeWhile_append_of_pos fun token hmem =>
          ne_closeBracket_of_isWord (hwords token hmem)]
        simp
      have hnonempty : (inside.filterMap bracketWord?).isEmpty = false := by
        obtain ⟨token, inside, rfl⟩ := List.exists_cons_of_ne_nil hne
        obtain ⟨value, quote, rfl⟩ := isWord_iff.mp (hwords token List.mem_cons_self)
        rfl
      rw [namePart]
      simp [hstop, hnonempty]

/-- A spelled name is read as a table. -/
theorem tableFactor_of_isSpelling (h : IsSpelling name part) :
    tableFactor name = .table ⟨[part]⟩ := by
  have hread : objectName? name = some (⟨[part]⟩, []) := by
    have hmore : furtherParts [] = ([], []) := furtherParts_of_ne (by simp)
    simp only [objectName?, namePart_of_isSpelling h, Option.map_some, hmore]
  obtain ⟨first, tail, rfl, hstarts, hplain⟩ : ∃ first tail, name = first :: tail ∧
      startsName first = true ∧ first.isPlain = true := by
    cases h with
    | @word value h =>
        exact ⟨_, _, rfl, by simp [startsName, h], by simp [Token.isPlain, Token.isStructural,
          Token.keyword?, h]⟩
    | quoted h => exact ⟨_, _, rfl, rfl, rfl⟩
    | bracketed hwords hne => exact ⟨_, _, rfl, rfl, rfl⟩
  rw [tableFactor_of_isPlain tail hplain, innerFactor_of_isPlain tail hplain, namedFactor, hread]
  simp [hstarts]

/-- Behind a balanced list no group is open. -/
theorem enclosing?_of_isBalanced {i : Nat} (h : IsBalanced (tokens.take i)) :
    enclosing? tokens i = none := by
  rw [enclosing?, lastBelow?_eq_none_iff]
  intro j hj
  rw [decide_eq_false_iff_not]
  rintro ⟨-, hparen, hopen⟩
  have hlast := hopen i (Nat.le_refl i)
  have hinside : (tokens.take i)[j]? = some .openParen := by
    rw [List.getElem?_take_of_lt hj, hparen]
  obtain ⟨hlength, hget⟩ := List.getElem?_eq_some_iff.mp hinside
  have hsplit : tokens.take i =
      (tokens.take i).take j ++ .openParen :: (tokens.take i).drop (j + 1) := by
    rw [← hget, ← List.drop_eq_getElem_cons hlength, List.take_append_drop]
  -- before `j` at most as many groups close as open, so after it more must close than open
  have hbefore := h.staysOpen _ (List.take_prefix j (tokens.take i))
  have hcount := h.count_eq
  rw [hsplit, List.count_append, List.count_append, List.count_cons_self,
    List.count_cons_of_ne (by decide)] at hcount
  simp only [countBetween] at hlast
  omega

/-- Behind a balanced list a `FROM` is followed by a table factor. -/
theorem referenceAt_from {front : List Token} {before : Token} (tokens : List Token)
    (hfront : IsBalanced (front ++ [before])) (hdistinct : before.isKeyword .DISTINCT = false) :
    referenceAt (front ++ before :: .word "FROM" none :: tokens) (front.length + 1) =
      (tableFactor tokens).reference? := by
  have htake : (front ++ before :: .word "FROM" none :: tokens).take (front.length + 1) =
      front ++ [before] := by simp [List.take_append]
  have hopener : isOpener (front ++ before :: .word "FROM" none :: tokens) (front.length + 1) =
      true := by
    have hfrom : (Token.word "FROM" none).isKeyword .FROM = true := by decide
    rw [isOpener, enclosing?_of_isBalanced (htake ▸ hfront)]
    simp [isQueryGroup, tokenBefore?, opensFactor, hdistinct, hfrom]
  have hdrop : (front ++ before :: .word "FROM" none :: tokens).drop (front.length + 1 + 1) =
      tokens := by
    rw [List.append_cons, List.append_cons]
    exact List.drop_left' (by simp)
  calc referenceAt (front ++ before :: .word "FROM" none :: tokens) (front.length + 1)
      = readAfter (front ++ before :: .word "FROM" none :: tokens) (front.length + 1) := by
        rw [referenceAt_eq_readAfter, hopener, Bool.true_or, if_pos rfl]
    _ = (tableFactor tokens).reference? := by rw [readAfter, hdrop]

theorem not_paren_of_isSpelling (h : IsSpelling name part) :
    ∀ token ∈ name, token ≠ .openParen ∧ token ≠ .closeParen := by
  intro token hmem
  cases h with
  | word h => simp_all
  | quoted h => simp_all
  | bracketed hwords hne =>
      rw [List.mem_cons, List.mem_append, List.mem_singleton] at hmem
      rcases hmem with rfl | hmem | rfl
      · exact ⟨by decide, by decide⟩
      · obtain ⟨value, quote, rfl⟩ := isWord_iff.mp (hwords token hmem)
        simp
      · exact ⟨by decide, by decide⟩

theorem isBalanced_cteHead (h : IsSpelling name part) (hbody : IsBalanced body) :
    IsBalanced (cteHead name body) := by
  have hopener : IsBalanced [.word "WITH" none] := isBalanced_of_not_paren (by simp)
  have hname : IsBalanced name := isBalanced_of_not_paren (not_paren_of_isSpelling h)
  have has : IsBalanced [.word "AS" none] := isBalanced_of_not_paren (by simp)
  have hselect : IsBalanced [.word "SELECT" none, .other] := isBalanced_of_not_paren (by simp)
  exact hopener.append (hname.append (has.append ((isBalanced_parenthesized hbody).append hselect)))

/-- The last `FROM` of the statement is followed by a reference. -/
theorem referenceAt_cteQuery (h : IsSpelling name part) (hbody : IsBalanced body) :
    referenceAt (cteQuery name body) (cteHead name body).length = some ⟨[part]⟩ := by
  obtain ⟨front, hfront⟩ : ∃ front, cteHead name body = front ++ [.other] :=
    ⟨.word "WITH" none ::
      (name ++ .word "AS" none :: (parenthesized body ++ [.word "SELECT" none])), by simp [cteHead]⟩
  have hbalanced := isBalanced_cteHead h hbody
  have hfrom := referenceAt_from name (hfront ▸ hbalanced) rfl
  rw [cteQuery, hfront, List.append_assoc, List.length_append, List.singleton_append]
  rw [tableFactor_of_isSpelling h] at hfrom
  exact hfrom

/-! ## The scope -/

theorem canonical_part (part : NamePart) :
    TableReference.canonical ⟨[part]⟩ = Text.lowercase (Text.trim part.value) := by
  rw [TableReference.canonical, Table.canonicalName]
  by_cases hempty : Text.lowercase (Text.trim part.value) = "" <;> simp [hempty]

/-- A reference in one part is one to a common table expression if its text in lower case and
without outer blanks is a name of the scope. -/
theorem resolve_part_iff {catalog : ModelCatalog} {ctes : CteScope} :
    resolve catalog ctes ⟨[part]⟩ = .cte ↔ Text.lowercase (Text.trim part.value) ∈ ctes.names := by
  have hcontains : ctes.contains (TableReference.canonical ⟨[part]⟩) = true ↔
      Text.lowercase (Text.trim part.value) ∈ ctes.names := by
    rw [canonical_part, CteScope.contains, Text.lowercase_lowercase, List.contains_iff_mem]
  have hunqualified : TableReference.isQualified ⟨[part]⟩ = false := rfl
  rw [← hcontains, resolve, hunqualified]
  cases ctes.contains (TableReference.canonical ⟨[part]⟩) with
  | true => simp
  | false =>
      cases catalog.lookup? (TableReference.canonical ⟨[part]⟩) <;> simp

/-- A word that spells a name is no keyword. -/
theorem isKeyword_of_isSpelling (h : IsSpelling [.word value quote] part) (keyword : Keyword) :
    (Token.word value quote).isKeyword keyword = false := by
  have hnone : (Token.word value quote).keyword? = none := by
    cases h with
    | word h => exact h
    | quoted h => rfl
  rw [Token.isKeyword, hnone]
  rfl

theorem isKeyword_with : (Token.word "WITH" none).isKeyword .WITH = true := by
  decide

/-- The definition at the start of the statement, if the name is a word. -/
theorem isDefinition_word (value : String) (quote : Option QuoteMark) (hbody : IsBalanced body)
    (after : List Token) :
    IsDefinition value (.word value quote :: .word "AS" none :: parenthesized body) after := by
  have hcolumns : ([] : List Token) = [] ∨ IsClosedGroup [] := .inl rfl
  have has : (Token.word "AS" none).isKeyword .AS = true := by decide
  exact .intro hcolumns has .absent .absent (.inl ⟨body, rfl, hbody⟩)

/-- The clause at the start of the statement, if the name is a word. -/
theorem isWithClause_word (h : IsSpelling [.word value quote] part) (hbody : IsBalanced body)
    (after : List Token) :
    IsWithClause value
      (.word "WITH" none :: ([] ++ .word value quote :: .word "AS" none :: parenthesized body))
      after := by
  have hchain := IsChain.last (isDefinition_word value quote hbody after)
  exact .intro isKeyword_with .absent (fun _ => isKeyword_of_isSpelling h .RECURSIVE) hchain

/-- If the name is a word, the statement defines it, whatever else is defined in the body. -/
theorem mem_definedNames_cteQuery (h : IsSpelling [.word value quote] part)
    (hbody : IsBalanced body) :
    value ∈ definedNames (cteQuery [.word value quote] body) := by
  have hclause := isWithClause_word h hbody
    [.word "SELECT" none, .other, .word "FROM" none, .word value quote]
  exact mem_definedNames_iff.mpr ⟨[], _, _, by simp [cteQuery, cteHead], hclause⟩

theorem definedNames_cons {token : Token} (h : token.isKeyword .WITH = false) (rest : List Token) :
    definedNames (token :: rest) = definedNames rest := by
  rw [definedNames, h, if_neg Bool.false_ne_true]

theorem cteQuery_nil (name : List Token) :
    cteQuery name [] = .word "WITH" none :: (name ++ .word "AS" none :: .openParen :: .closeParen ::
      .word "SELECT" none :: .other :: .word "FROM" none :: name) := by
  simp [cteQuery, cteHead, parenthesized]

/-- Between the two names of a statement with an empty body nothing is defined. -/
theorem definedNames_betweenNames (tokens : List Token) :
    definedNames (.word "AS" none :: .openParen :: .closeParen :: .word "SELECT" none :: .other ::
      .word "FROM" none :: tokens) = definedNames tokens := by
  have has : (Token.word "AS" none).isKeyword .WITH = false := by decide
  have hselect : (Token.word "SELECT" none).isKeyword .WITH = false := by decide
  have hfrom : (Token.word "FROM" none).isKeyword .WITH = false := by decide
  rw [definedNames_cons has, definedNames_cons rfl, definedNames_cons rfl,
    definedNames_cons hselect, definedNames_cons rfl, definedNames_cons hfrom]

/-- One definition is read at the start, unless a comma comes after it. -/
theorem definitions_afterOptional_word (h : IsSpelling [.word value quote] part)
    (hbody : IsBalanced body) (after : List Token) (hcomma : after.head? ≠ some .comma) :
    definitions (afterOptional .RECURSIVE
      (.word value quote :: .word "AS" none :: (parenthesized body ++ after))) = [value] := by
  have hdefinition := definition?_of_isDefinition (isDefinition_word value quote hbody after)
  rw [afterOptional, isKeyword_of_isSpelling h, if_neg Bool.false_ne_true]
  rw [← List.cons_append, ← List.cons_append, definitions_of_some hdefinition, if_neg hcomma]

/-- With an empty body the statement defines nothing else. -/
theorem definedNames_cteQuery_word (h : IsSpelling [.word value quote] part) :
    definedNames (cteQuery [.word value quote] []) = [value] := by
  have hread := definitions_afterOptional_word h isBalanced_nil
    [.word "SELECT" none, .other, .word "FROM" none, .word value quote] (by simp)
  have hno := isKeyword_of_isSpelling h .WITH
  simp only [List.cons_append, List.nil_append, parenthesized] at hread
  rw [cteQuery_nil, definedNames, if_pos isKeyword_with, List.singleton_append, hread]
  -- neither the name nor what stands between its two places defines anything
  rw [definedNames_cons hno, definedNames_betweenNames, definedNames_cons hno]
  rfl

/-! ### Brackets -/

section Brackets

variable (hwords : ∀ token ∈ inside, token.isWord = true)
include hwords

theorem head?_inside (rest : List Token) :
    (inside ++ .closeBracket :: rest).head? ≠ some .openParen := by
  cases inside with
  | nil => simp
  | cons token inside =>
      obtain ⟨value, quote, rfl⟩ := isWord_iff.mp (hwords token List.mem_cons_self)
      simp

/-- What is left after an optional keyword are words up to the bracket. -/
theorem exists_afterOptional_inside (keyword : Keyword) (rest : List Token) :
    ∃ left, afterOptional keyword (inside ++ .closeBracket :: rest) =
        left ++ .closeBracket :: rest ∧
      ∀ token ∈ left, token.isWord = true := by
  cases inside with
  | nil => exact ⟨[], rfl, by simp⟩
  | cons token inside =>
      rw [List.cons_append, afterOptional]
      split
      · exact ⟨inside, rfl, fun t ht => hwords t (List.mem_cons_of_mem token ht)⟩
      · exact ⟨token :: inside, rfl, hwords⟩

/-- Words up to a bracket are no definition, since no parenthesis comes before the bracket. -/
theorem definition?_inside (rest : List Token) :
    definition? (inside ++ .closeBracket :: rest) = none := by
  cases inside with
  | nil => rfl
  | cons token inside =>
      obtain ⟨value, quote, rfl⟩ := isWord_iff.mp (hwords token List.mem_cons_self)
      have hinside : ∀ token ∈ inside, token.isWord = true := fun t ht =>
        hwords t (List.mem_cons_of_mem _ ht)
      rw [List.cons_append, definition?, afterGroup_of_ne (head?_inside hinside rest)]
      cases inside with
      | nil => rfl
      | cons as inside =>
          have hafter : ∀ token ∈ inside, token.isWord = true := fun t ht =>
            hinside t (List.mem_cons_of_mem as ht)
          obtain ⟨left, hleft, hleftWords⟩ := exists_afterOptional_inside hafter .NOT rest
          obtain ⟨last, hlast, hlastWords⟩ :=
            exists_afterOptional_inside hleftWords .MATERIALIZED rest
          have hno := head?_inside hlastWords rest
          simp only [List.cons_append, hleft, hlast, if_neg hno, ite_self]

theorem definitions_inside (keyword : Keyword) (rest : List Token) :
    definitions (afterOptional keyword (inside ++ .closeBracket :: rest)) = [] := by
  obtain ⟨left, hleft, hleftWords⟩ := exists_afterOptional_inside hwords keyword rest
  rw [hleft]
  exact definitions_of_none (definition?_inside hleftWords rest)

/-- Words up to a bracket define nothing, even if `WITH` is one of them. -/
theorem definedNames_inside (rest : List Token) :
    definedNames (inside ++ .closeBracket :: rest) = definedNames rest := by
  induction inside with
  | nil => exact definedNames_cons rfl rest
  | cons token inside ih =>
      have hinside : ∀ token ∈ inside, token.isWord = true := fun t ht =>
        hwords t (List.mem_cons_of_mem token ht)
      rw [List.cons_append, definedNames, definitions_inside hinside, List.nil_append, ite_self]
      exact ih hinside

/-- With an empty body the statement defines nothing if the name is in brackets. -/
theorem definedNames_cteQuery_bracketed :
    definedNames (cteQuery (.openBracket :: (inside ++ [.closeBracket])) []) = [] := by
  have hnone : ∀ rest, definitions (afterOptional .RECURSIVE (.openBracket :: rest)) = [] :=
    fun rest => definitions_of_none rfl
  have hname : ∀ rest, definedNames (.openBracket :: (inside ++ .closeBracket :: rest)) =
      definedNames rest := by
    intro rest
    rw [definedNames_cons rfl, definedNames_inside hwords]
  rw [cteQuery_nil, List.cons_append, List.append_assoc, List.singleton_append]
  -- the first `WITH` defines nothing, and neither does the name at its two places
  rw [definedNames, if_pos isKeyword_with, hnone, List.nil_append]
  calc definedNames (.openBracket :: (inside ++ .closeBracket :: .word "AS" none :: .openParen ::
        .closeParen :: .word "SELECT" none :: .other :: .word "FROM" none ::
          .openBracket :: (inside ++ [.closeBracket])))
      = definedNames (.word "AS" none :: .openParen :: .closeParen :: .word "SELECT" none ::
          .other :: .word "FROM" none :: .openBracket :: (inside ++ [.closeBracket])) := hname _
    _ = definedNames (.openBracket :: (inside ++ [.closeBracket])) :=
        definedNames_betweenNames _
    _ = [] := hname []

end Brackets

/-! ## Exclusion -/

/-- A text with outer blanks is not the lower-case form of the text without them. -/
theorem trim_eq_of_lowercase_eq (h : Text.lowercase (Text.trim value) = Text.lowercase value) :
    Text.trim value = value := by
  refine Text.eq_of_sublist_of_length_lowercase ?_ (by rw [h])
  rw [Text.trim, String.toList_ofList]
  exact (Text.trimWhile_infix _ _).sublist

theorem resolve_cteQuery_word_iff (h : IsSpelling [.word value quote] part) :
    (∀ body, IsBalanced body → ∀ catalog,
      resolve catalog (collectCtes (cteQuery [.word value quote] body)) ⟨[part]⟩ = .cte) ↔
        Text.trim value = value := by
  have hvalue : part.value = value := by cases h <;> rfl
  constructor
  · intro hall
    have hempty := hall [] isBalanced_nil .empty
    rw [resolve_part_iff, hvalue, collectCtes, CteScope.mem_ofNames, definedNames_cteQuery_word h]
      at hempty
    obtain ⟨written, hwritten, hlower⟩ := hempty
    obtain rfl := List.mem_singleton.mp hwritten
    exact trim_eq_of_lowercase_eq hlower
  · intro htrim body hbody catalog
    rw [resolve_part_iff, hvalue, htrim, collectCtes, CteScope.mem_ofNames]
    exact ⟨value, mem_definedNames_cteQuery h hbody, rfl⟩

theorem exists_word_iff :
    (∃ value' quote', [Token.word value quote] = [.word value' quote'] ∧
      Text.trim value' = value') ↔
      Text.trim value = value := by
  simp

/-- A name in brackets is not recognized if nothing is defined in the body either. -/
theorem resolve_cteQuery_bracketed_ne (hwords : ∀ token ∈ inside, token.isWord = true)
    (catalog : ModelCatalog) :
    resolve catalog (collectCtes (cteQuery (.openBracket :: (inside ++ [.closeBracket])) []))
      ⟨[part]⟩ ≠ .cte := by
  rw [ne_eq, resolve_part_iff, collectCtes, CteScope.mem_ofNames,
    definedNames_cteQuery_bracketed hwords]
  rintro ⟨written, hwritten, -⟩
  exact List.not_mem_nil hwritten

/-- In `WITH name AS ( body ) SELECT * FROM name` the last name is read as a reference in one part,
and for every body and every catalog it is one to the common table expression exactly if the name is
a word without outer blanks, quoted or not. -/
theorem resolve_cteQuery_iff (h : IsSpelling name part) :
    (∀ body, IsBalanced body →
      referenceAt (cteQuery name body) (cteHead name body).length = some ⟨[part]⟩) ∧
    ((∀ body, IsBalanced body → ∀ catalog,
      resolve catalog (collectCtes (cteQuery name body)) ⟨[part]⟩ = .cte) ↔
        ∃ value quote, name = [.word value quote] ∧ Text.trim value = value) := by
  refine ⟨fun body hbody => referenceAt_cteQuery h hbody, ?_⟩
  cases h with
  | word h => rw [resolve_cteQuery_word_iff (.word h), exists_word_iff]
  | quoted h => rw [resolve_cteQuery_word_iff (.quoted h), exists_word_iff]
  | bracketed hwords hne =>
      refine iff_of_false ?_ ?_
      · intro hall
        exact resolve_cteQuery_bracketed_ne hwords .empty (hall [] isBalanced_nil .empty)
      · rintro ⟨value, quote, heq, -⟩
        exact absurd (List.cons.inj heq).1 (by simp)

theorem resolve_cteQuery_quoted :
    let name : List Token := [.word "Orders 2" (some .double)]
    IsSpelling name ⟨"Orders 2", true⟩ ∧
      (∀ body, IsBalanced body →
        referenceAt (cteQuery name body) (cteHead name body).length = some ⟨[⟨"Orders 2", true⟩]⟩) ∧
      (∀ body, IsBalanced body → ∀ catalog,
        resolve catalog (collectCtes (cteQuery name body)) ⟨[⟨"Orders 2", true⟩]⟩ = .cte) := by
  intro name
  have hspelling : IsSpelling name ⟨"Orders 2", true⟩ := .quoted (by decide)
  obtain ⟨hreference, hresolve⟩ := resolve_cteQuery_iff hspelling
  exact ⟨hspelling, hreference, hresolve.mpr ⟨"Orders 2", some .double, rfl, by decide⟩⟩

/-- Of a name in brackets nothing is known, so it is taken for a table. -/
example : resolve .empty (collectCtes (cteQuery [.openBracket, .word "a" none, .closeBracket] []))
    ⟨[⟨"a", true⟩]⟩ = .external "a" := by
  decide +kernel

/-- With a blank at its end a name is defined, but not found. -/
example : resolve .empty (collectCtes (cteQuery [.word "a " (some .double)] []))
    ⟨[⟨"a ", true⟩]⟩ = .external "a" := by
  decide +kernel

end TableLineage.Sql
