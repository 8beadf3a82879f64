import TableLineage.Proofs.Sql.ParenGroups
import TableLineage.Proofs.Sql.Walk

/-!
# The grammar of `WITH` clauses

The names of a statement's common table expressions are given by a grammar (`IsWithClause`): at a
`WITH`, after a `RECURSIVE` if there is one, a chain of definitions starts, and the name of its last
definition belongs to the scope.  Every chain counts, not only the longest, so all names of a chain
belong to it; and so do the chains at any `WITH` inside the groups of another chain.

The reader takes optional parts as soon as they are there, and looks only at the start of what is
left.  It accepts just this grammar (`mem_names_collectCtes_iff`), since no optional part can be
mistaken for what follows it: a keyword is not a parenthesis and no other keyword.  The exception is
`RECURSIVE`, which could be the name of a definition; the grammar says that it never is.
-/

namespace TableLineage.Sql

/-! ## The grammar -/

/-- A keyword that may be left out. -/
inductive IsOptional (keyword : Keyword) : List Token → Prop
  | absent : IsOptional keyword []
  | present {token : Token} (h : token.isKeyword keyword = true) : IsOptional keyword [token]

/-- A definition `name [(columns)] AS [NOT] [MATERIALIZED] (body)`, given the tokens after it.  Of
its groups only the body can be without an end, as tokens come after the other. -/
inductive IsDefinition : String → List Token → List Token → Prop
  | intro {name : String} {quote : Option QuoteMark}
      {columns negation materialized body : List Token}
      {as : Token} {after : List Token} (hcolumns : columns = [] ∨ IsClosedGroup columns)
      (has : as.isKeyword .AS = true) (hnegation : IsOptional .NOT negation)
      (hmaterialized : IsOptional .MATERIALIZED materialized) (hbody : IsGroup body after) :
      IsDefinition name
        (.word name quote :: (columns ++ as :: (negation ++ (materialized ++ body)))) after

/-- Definitions that are separated by commas, the last of which defines a name, given the tokens
after them. -/
inductive IsChain : String → List Token → List Token → Prop
  | last {name : String} {phrase after : List Token} (h : IsDefinition name phrase after) :
      IsChain name phrase after
  | cons {name first : String} {phrase chain after : List Token}
      (h : IsDefinition first phrase (.comma :: (chain ++ after)))
      (hchain : IsChain name chain after) :
      IsChain name (phrase ++ .comma :: chain) after

/-- A `WITH`, a `RECURSIVE` if it is there, and a chain whose last definition defines a name, given
the tokens after it. -/
inductive IsWithClause : String → List Token → List Token → Prop
  | intro {name : String} {opener : Token} {recursive chain after : List Token}
      (hopener : opener.isKeyword .WITH = true) (hrecursive : IsOptional .RECURSIVE recursive)
      (hskipped : recursive = [] → chain.head?.any (·.isKeyword .RECURSIVE) = false)
      (hchain : IsChain name chain after) :
      IsWithClause name (opener :: (recursive ++ chain)) after

variable {keyword : Keyword} {name : String} {token : Token}
  {tokens optional rest phrase after : List Token}

/-! ## Optional keywords -/

theorem afterOptional_append (h : IsOptional keyword optional)
    (hrest : optional = [] → rest.head?.any (·.isKeyword keyword) = false) :
    afterOptional keyword (optional ++ rest) = rest := by
  cases h with
  | present htoken => rw [List.singleton_append, afterOptional, if_pos htoken]
  | absent =>
      have hhead := hrest rfl
      cases rest with
      | nil => rfl
      | cons token rest =>
          have htoken : ¬ token.isKeyword keyword = true := by simpa using hhead
          rw [List.nil_append, afterOptional, if_neg htoken]

theorem exists_isOptional (keyword : Keyword) (tokens : List Token) :
    ∃ optional, tokens = optional ++ afterOptional keyword tokens ∧ IsOptional keyword optional ∧
      (optional = [] → (afterOptional keyword tokens).head?.any (·.isKeyword keyword) = false) := by
  cases tokens with
  | nil => exact ⟨[], rfl, .absent, fun _ => rfl⟩
  | cons token rest =>
      rw [afterOptional]
      split
      case isTrue htoken => exact ⟨[token], rfl, .present htoken, fun h => absurd h (by simp)⟩
      case isFalse htoken => exact ⟨[], rfl, .absent, fun _ => by simpa using htoken⟩

/-! ## Definitions -/

theorem IsGroup.head? (h : IsGroup phrase after) (rest : List Token) :
    (phrase ++ rest).head? = some .openParen := by
  rcases h with ⟨body, rfl, -⟩ | ⟨-, body, rfl, -⟩ <;> rfl

theorem Token.ne_openParen_of_isKeyword (h : token.isKeyword keyword = true) :
    token ≠ .openParen := by
  rintro rfl
  exact absurd h (by simp [Token.isKeyword, Token.keyword?])

theorem Token.isKeyword_unique {other : Keyword} (h : token.isKeyword keyword = true)
    (hne : keyword ≠ other) : token.isKeyword other = false := by
  rw [Token.isKeyword, beq_iff_eq] at h
  rw [Token.isKeyword, h]
  simpa using hne

/-- The reader accepts what the grammar calls a definition. -/
theorem definition?_of_isDefinition (h : IsDefinition name phrase after) :
    definition? (phrase ++ after) = some (name, after) := by
  cases h with
  | @intro quote columns negation materialized body as _ hcolumns has hnegation
      hmaterialized hbody =>
      have hafterColumns : ∀ rest, afterGroup (columns ++ as :: rest) = as :: rest := by
        intro rest
        rcases hcolumns with rfl | hclosed
        · exact afterGroup_of_ne fun h => Token.ne_openParen_of_isKeyword has (Option.some.inj h)
        · exact afterGroup_append (.inl hclosed)
      -- the body starts with a parenthesis, so no keyword is left behind the optional ones
      have hnoKeyword : ∀ keyword, (body ++ after).head?.any (·.isKeyword keyword) = false := by
        intro keyword
        rw [hbody.head? after]
        rfl
      have hafterNegation : afterOptional .NOT (negation ++ (materialized ++ (body ++ after))) =
          materialized ++ (body ++ after) := by
        apply afterOptional_append hnegation
        intro _
        cases hmaterialized with
        | absent => exact hnoKeyword .NOT
        | present htoken => exact Token.isKeyword_unique htoken (by decide)
      have hafterMaterialized : afterOptional .MATERIALIZED (materialized ++ (body ++ after)) =
          body ++ after := afterOptional_append hmaterialized fun _ => hnoKeyword .MATERIALIZED
      simp only [List.cons_append, List.append_assoc, definition?, hafterColumns, has, if_true,
        hafterNegation, hafterMaterialized, hbody.head? after, afterGroup_append hbody]

/-- What is skipped before further tokens is nothing or a closed group. -/
theorem exists_columns {as : Token} (h : afterGroup tokens = as :: rest) :
    ∃ columns, tokens = columns ++ as :: rest ∧ (columns = [] ∨ IsClosedGroup columns) := by
  by_cases hparen : tokens.head? = some .openParen
  · obtain ⟨columns, htokens, hcolumns⟩ := exists_isGroup hparen
    rw [h] at htokens hcolumns
    rcases hcolumns with hclosed | ⟨hempty, -⟩
    · exact ⟨columns, htokens, .inr hclosed⟩
    · exact absurd hempty (List.cons_ne_nil as rest)
  · rw [afterGroup_of_ne hparen] at h
    exact ⟨[], h, .inl rfl⟩

/-- What the reader accepts is a definition. -/
theorem exists_isDefinition (h : definition? tokens = some (name, after)) :
    ∃ phrase, tokens = phrase ++ after ∧ IsDefinition name phrase after := by
  unfold definition? at h
  split at h
  case h_2 => exact absurd h (by simp)
  case h_1 word quote tail =>
      split at h
      case h_2 => exact absurd h (by simp)
      case h_1 as rest hgroup =>
          rw [Option.ite_none_right_eq_some] at h
          obtain ⟨has, h⟩ := h
          dsimp only at h
          rw [Option.ite_none_right_eq_some, Option.some.injEq, Prod.mk.injEq] at h
          obtain ⟨hopen, rfl, rfl⟩ := h
          -- what is passed over is put together again: keywords, body, columns
          obtain ⟨negation, hnegation, hisNot, -⟩ := exists_isOptional .NOT rest
          obtain ⟨materialized, hmaterialized, hisMaterialized, -⟩ :=
            exists_isOptional .MATERIALIZED (afterOptional .NOT rest)
          obtain ⟨body, hbody, hisGroup⟩ := exists_isGroup hopen
          obtain ⟨columns, rfl, hisColumns⟩ := exists_columns hgroup
          have hrest : rest = negation ++ (materialized ++ (body ++ afterGroup
              (afterOptional .MATERIALIZED (afterOptional .NOT rest)))) := by
            rw [← hbody, ← hmaterialized, ← hnegation]
          refine ⟨.word word quote :: (columns ++ as :: (negation ++ (materialized ++ body))), ?_,
            .intro hisColumns has hisNot hisMaterialized hisGroup⟩
          calc Token.word word quote :: (columns ++ as :: rest)
              = .word word quote ::
                (columns ++ as :: (negation ++ (materialized ++ (body ++ afterGroup
                  (afterOptional .MATERIALIZED (afterOptional .NOT rest)))))) := by rw [← hrest]
            _ = .word word quote :: (columns ++ as :: (negation ++ (materialized ++ body))) ++
              afterGroup
                  (afterOptional .MATERIALIZED (afterOptional .NOT rest)) := by simp

/-! ## Chains -/

theorem definitions_of_none (h : definition? tokens = none) : definitions tokens = [] := by
  rw [definitions]
  split
  case h_1 => rfl
  case h_2 first rest hsome => exact absurd (h.symm.trans hsome) (by simp)

theorem definitions_of_some (h : definition? tokens = some (name, after)) :
    definitions tokens =
      if after.head? = some .comma then name :: definitions after.tail else [name] := by
  rw [definitions]
  split
  case h_1 hnone => exact absurd (h.symm.trans hnone) (by simp)
  case h_2 first rest hsome =>
      obtain ⟨rfl, rfl⟩ := Prod.mk.inj (Option.some.inj (h.symm.trans hsome))
      rfl

theorem mem_definitions_of_isChain (h : IsChain name phrase after) :
    name ∈ definitions (phrase ++ after) := by
  induction h with
  | @last phrase after h =>
      rw [definitions_of_some (definition?_of_isDefinition h)]
      split <;> exact List.mem_cons_self
  | @cons first phrase chain after h _ ih =>
      have hfirst := definition?_of_isDefinition h
      rw [List.append_assoc, List.cons_append, definitions_of_some hfirst, List.head?_cons,
        if_pos rfl]
      exact List.mem_cons_of_mem first ih

theorem exists_isChain (h : name ∈ definitions tokens) :
    ∃ phrase after, tokens = phrase ++ after ∧ IsChain name phrase after := by
  induction tokens using definitions.induct with
  | case1 tokens hnone =>
      rw [definitions_of_none hnone] at h
      exact absurd h List.not_mem_nil
  | case2 tokens first rest hsome hcomma ih =>
      obtain ⟨phrase, rfl, hphrase⟩ := exists_isDefinition hsome
      rw [definitions_of_some hsome, if_pos hcomma, List.mem_cons] at h
      rcases h with rfl | h
      · exact ⟨phrase, rest, rfl, .last hphrase⟩
      · obtain ⟨chain, after, htail, hchain⟩ := ih h
        obtain ⟨tail, rfl⟩ : ∃ tail, rest = .comma :: tail := List.head?_eq_some_iff.mp hcomma
        obtain rfl : tail = chain ++ after := htail
        exact ⟨phrase ++ .comma :: chain, after, by simp, .cons hphrase hchain⟩
  | case3 tokens first rest hsome hcomma =>
      obtain ⟨phrase, rfl, hphrase⟩ := exists_isDefinition hsome
      rw [definitions_of_some hsome, if_neg hcomma] at h
      obtain rfl := List.mem_singleton.mp h
      exact ⟨phrase, rest, rfl, .last hphrase⟩

/-- The names of the definitions at the start of the tokens are those of the chains there. -/
theorem mem_definitions_iff :
    name ∈ definitions tokens ↔ ∃ phrase after, tokens = phrase ++ after ∧
      IsChain name phrase after := by
  refine ⟨exists_isChain, ?_⟩
  rintro ⟨phrase, after, rfl, h⟩
  exact mem_definitions_of_isChain h

/-! ## Clauses -/

theorem IsChain.head? (h : IsChain name phrase after) (rest : List Token) :
    (phrase ++ rest).head? = phrase.head? := by
  cases h with
  | last h => cases h; rfl
  | cons h _ => cases h; rfl

theorem mem_definitions_iff_isWithClause {opener : Token}
    (hopener : opener.isKeyword .WITH = true) :
    name ∈ definitions (afterOptional .RECURSIVE tokens) ↔
      ∃ clause after, opener :: tokens = clause ++ after ∧ IsWithClause name clause after := by
  rw [mem_definitions_iff]
  constructor
  · rintro ⟨chain, after, hrest, hchain⟩
    obtain ⟨recursive, htokens, hrecursive, hskipped⟩ := exists_isOptional .RECURSIVE tokens
    rw [hrest] at htokens hskipped
    rw [hchain.head? after] at hskipped
    exact ⟨opener :: (recursive ++ chain), after, by simp [htokens],
      .intro hopener hrecursive hskipped hchain⟩
  · rintro ⟨clause, after, htokens, hclause⟩
    cases hclause with
    | @intro opener recursive chain _ _ hrecursive hskipped hchain =>
        -- without `RECURSIVE` the chain must not start with it, or it would be skipped
        have htail : tokens = recursive ++ (chain ++ after) :=
          (List.cons.inj htokens).2.trans (List.append_assoc recursive chain after)
        refine ⟨chain, after, ?_, hchain⟩
        rw [htail]
        apply afterOptional_append hrecursive
        intro hempty
        rw [hchain.head? after]
        exact hskipped hempty

theorem IsWithClause.exists_opener {clause : List Token} (h : IsWithClause name clause after) :
    ∃ opener tail, clause = opener :: tail ∧ opener.isKeyword .WITH = true := by
  cases h with
  | @intro opener recursive chain _ hopener => exact ⟨opener, recursive ++ chain, rfl, hopener⟩

/-- A clause in a list starts at its first token or stands in the rest. -/
theorem exists_clause_cons_iff :
    (∃ before clause after, token :: tokens = before ++ (clause ++ after) ∧
      IsWithClause name clause after) ↔
    (∃ clause after, token :: tokens = clause ++ after ∧ IsWithClause name clause after) ∨
      ∃ before clause after, tokens = before ++ (clause ++ after) ∧
        IsWithClause name clause after := by
  constructor
  · rintro ⟨before, clause, after, htokens, hclause⟩
    cases before with
    | nil => exact .inl ⟨clause, after, htokens, hclause⟩
    | cons first before => exact .inr ⟨before, clause, after, (List.cons.inj htokens).2, hclause⟩
  · rintro (⟨clause, after, htokens, hclause⟩ | ⟨before, clause, after, htokens, hclause⟩)
    · exact ⟨[], clause, after, htokens, hclause⟩
    · exact ⟨token :: before, clause, after, congrArg (token :: ·) htokens, hclause⟩

/-- The names that are defined in a statement are those of the clauses in it. -/
theorem mem_definedNames_iff :
    name ∈ definedNames tokens ↔
      ∃ before clause after, tokens = before ++ (clause ++ after) ∧
        IsWithClause name clause after := by
  induction tokens with
  | nil =>
      refine iff_of_false List.not_mem_nil ?_
      rintro ⟨before, clause, after, hempty, hclause⟩
      obtain ⟨opener, tail, rfl, -⟩ := hclause.exists_opener
      simp at hempty
  | cons token tokens ih =>
      rw [exists_clause_cons_iff, ← ih, definedNames]
      split
      case isTrue hopener => rw [List.mem_append, mem_definitions_iff_isWithClause hopener]
      case isFalse hno =>
          -- no clause starts here, since the first token is no `WITH`
          refine (or_iff_right ?_).symm
          rintro ⟨clause, after, htokens, hclause⟩
          obtain ⟨opener, tail, rfl, hopener⟩ := hclause.exists_opener
          obtain rfl := (List.cons.inj htokens).1
          exact hno hopener

/-! ## Scopes -/

theorem CteScope.mem_foldl_insert (names : List String) (scope : CteScope) :
    name ∈ (names.foldl insert scope).names ↔
      name ∈ scope.names ∨ ∃ written ∈ names, name = Text.lowercase written := by
  induction names generalizing scope with
  | nil => simp
  | cons first names ih =>
      rw [List.foldl_cons, ih, insert, Order.mem_insertAscending]
      simp only [List.mem_cons, exists_eq_or_imp]
      tauto

theorem CteScope.mem_ofNames {names : List String} :
    name ∈ (ofNames names).names ↔ ∃ written ∈ names, name = Text.lowercase written := by
  rw [ofNames, mem_foldl_insert]
  exact or_iff_right List.not_mem_nil

/-- A name is in the scope of a statement if it is the lower case of the name that the last
definition of a chain after a `WITH` defines, wherever the `WITH` stands. -/
theorem mem_names_collectCtes_iff (statement : List Token) (name : String) :
    name ∈ (collectCtes statement).names ↔
      ∃ written before clause after, statement = before ++ (clause ++ after) ∧
        IsWithClause written clause after ∧ name = Text.lowercase written := by
  rw [collectCtes, CteScope.mem_ofNames]
  constructor
  · rintro ⟨written, hwritten, hname⟩
    obtain ⟨before, clause, after, hstatement, hclause⟩ := mem_definedNames_iff.mp hwritten
    exact ⟨written, before, clause, after, hstatement, hclause, hname⟩
  · rintro ⟨written, before, clause, after, hstatement, hclause, hname⟩
    exact ⟨written, mem_definedNames_iff.mpr ⟨before, clause, after, hstatement, hclause⟩, hname⟩

end TableLineage.Sql
