import TableLineage.Proofs.Sql.Stretch

/-!
# The references of a query of the grammar

The walk finds the names in factor position of every statement of the grammar, each once and in
order, and nothing else (`extractReferences_eq_of_derives`).

## Strategy

Every phrase has a meaning for the walk (`Meaning`): under which levels and after which tokens it
may stand, what is found in it, and which levels it leaves.  The flags of the levels carry the
proof.

* Items and groups leave the levels as they were.  A comma may stand in them only where no `FROM`
  clause of a query is open.
* Inside a group that is no query the flag for an open clause may change, but the group is left by
  its closing parenthesis and the flag is lost with it.
* A subquery has a level of its own, so that its clauses do not touch those around it.
* What is read ahead at a factor and what the walk finds inside it together are the names of the
  factor: a plain name is only read, a subquery is only walked through, and a parenthesized join is
  read as far as its first name and walked through for the others.

Each rule of the grammar is one lemma on meanings, and the theorem is the induction over the rules.
-/

namespace TableLineage.Sql

/-- Whether tokens start with a word that makes a query of the group around them. -/
def StartsQuery (tokens : List Token) : Prop :=
  ∃ word rest, tokens = word :: rest ∧
    ∃ keyword ∈ [Keyword.SELECT, .WITH, .VALUES], word.keyword? = some keyword

/-- What a phrase with some names does to the walk. -/
def Meaning : Phrase → List Token → List TableReference → Prop
  | .item commas, tokens, names | .items commas, tokens, names =>
    ∀ (frames : Frames) (before : Option Token), IsNeutral before →
      (commas = true → (frames.current.query && frames.current.inFrom) = false) →
      ∃ last, IsNeutral last ∧ Walks Anything frames before tokens names frames last
  | .argument, tokens, names | .arguments, tokens, names =>
    ∀ (frames : Frames) (before : Option Token), frames.current.query = false →
      before.any Token.introducesTable = false →
      ∃ inFrom last, last.any Token.introducesTable = false ∧
        Walks Anything frames before tokens names (frames.setInFrom inFrom) last
  | .group, tokens, names =>
    tokens.head? = some .openParen ∧
      ∀ (frames : Frames) (before : Option Token), before.any Token.introducesTable = false →
        Walks Anything frames before tokens names frames (some .closeParen)
  | .subquery, tokens, names =>
    (∃ inside, StartsQuery inside ∧ tokens = parenthesized inside) ∧
      ∀ (frames : Frames) (before : Option Token),
        Walks Anything frames before tokens names frames (some .closeParen)
  | .source, tokens, names =>
    (∀ rest, (tableFactor (tokens ++ rest)).reference? = none ∧
        (innerFactor (tokens ++ rest)).reference? = none) ∧
      ∀ (frames : Frames) (before : Option Token),
        ∃ last, IsNeutral last ∧ Walks Anything frames before tokens names frames last
  | .factor introduced, tokens, names =>
    ∀ (frames : Frames) (before : Option Token),
      (introduced = true → before.any Token.introducesTable = true) →
      ∃ last, IsNeutral last ∧ ReadsAndWalks tableFactor frames before tokens names last ∧
        ReadsAndWalks innerFactor frames before tokens names last
  | .table introduced, tokens, names =>
    ∀ (frames : Frames) (before : Option Token),
      (introduced = true → before.any Token.introducesTable = true) →
      ∃ last, IsNeutral last ∧ ReadsAndWalks tableFactor frames before tokens names last
  | .join commas, tokens, names =>
    tokens ≠ [] ∧ EndsName tokens ∧
      ∀ (frames : Frames) (before : Option Token), IsNeutral before →
        frames.current.query = true → (commas = true → frames.current.inFrom = true) →
        ∃ last, IsNeutral last ∧
          Walks EndsName frames before tokens names (frames.setInFrom true) last
  | .joins commas, tokens, names =>
    EndsName tokens ∧
      ∀ (frames : Frames) (before : Option Token), IsNeutral before →
        (tokens ≠ [] → frames.current.query = true) →
        (commas = true → frames.current.inFrom = true) →
        ∃ inFrom last, IsNeutral last ∧
          Walks EndsName frames before tokens names (frames.setInFrom inFrom) last
  | .clauses, tokens, names =>
    EndsName tokens ∧
      ∀ (frames : Frames) (before : Option Token), IsNeutral before →
        ∃ inFrom last, IsNeutral last ∧
          Walks Anything frames before tokens names (frames.setInFrom inFrom) last
  | .core, tokens, names =>
    StartsQuery tokens ∧
      ∀ (frames : Frames) (before : Option Token), frames.current.query = true →
        ∃ inFrom last, IsNeutral last ∧
          Walks EndsName frames before tokens names (frames.setInFrom inFrom) last
  | .setOperations, tokens, names =>
    EndsName tokens ∧
      ∀ (frames : Frames) (before : Option Token), IsNeutral before →
        frames.current.query = true →
        ∃ inFrom last, IsNeutral last ∧
          Walks EndsName frames before tokens names (frames.setInFrom inFrom) last
  | .definitions, tokens, names =>
    ∀ (frames : Frames) (before : Option Token), IsNeutral before →
      (frames.current.query && frames.current.inFrom) = false →
      ∃ last, IsNeutral last ∧ Walks Anything frames before tokens names frames last
  | .query, tokens, names =>
    StartsQuery tokens ∧
      ∀ (frames : Frames) (before : Option Token), IsNeutral before →
        frames.current.query = true → frames.current.inFrom = false →
        ∃ inFrom last, IsNeutral last ∧
          Walks EndsName frames before tokens names (frames.setInFrom inFrom) last
  | .statement, tokens, names => extractReferences tokens = names

variable {tokens first rest : List Token} {names left middle right : List TableReference}
  {word token : Token} {commas introduced : Bool}

theorem StartsQuery.append (h : StartsQuery tokens) (rest : List Token) :
    StartsQuery (tokens ++ rest) := by
  obtain ⟨word, inside, rfl, hword⟩ := h
  exact ⟨word, inside ++ rest, rfl, hword⟩

theorem StartsQuery.head (h : StartsQuery tokens) :
    tokens.head?.any Token.startsQuery = true := by
  obtain ⟨word, inside, rfl, keyword, hmem, hword⟩ := h
  simp only [List.mem_cons, List.not_mem_nil, or_false] at hmem
  rcases hmem with rfl | rfl | rfl <;> simp [Token.startsQuery, Token.isKeyword, hword]

/-- No table is read at a word that starts a query or unnests an array. -/
theorem innerFactor_of_keyword? {keyword : Keyword} (hword : word.keyword? = some keyword)
    (hmem : keyword ∈ [Keyword.SELECT, .WITH, .VALUES, .LATERAL, .UNNEST]) (rest : List Token) :
    innerFactor (word :: rest) = .unnamed := by
  obtain ⟨value, rfl, hvalue⟩ := Token.exists_word_of_keyword? hword
  have hstarts : startsName (.word value none) = false := by
    simp only [List.mem_cons, List.not_mem_nil, or_false] at hmem
    rcases hmem with rfl | rfl | rfl | rfl | rfl <;> simp only [startsName, hvalue]
  simp [innerFactor, namedFactor, hstarts]

theorem innerFactor_of_startsQuery (h : StartsQuery tokens) : innerFactor tokens = .unnamed := by
  obtain ⟨word, inside, rfl, keyword, hmem, hword⟩ := h
  refine innerFactor_of_keyword? hword ?_ inside
  simp only [List.mem_cons, List.not_mem_nil, or_false] at hmem ⊢
  rcases hmem with rfl | rfl | rfl <;> simp

theorem tableFactor_openParen (rest : List Token) :
    tableFactor (.openParen :: rest) = innerFactor rest := rfl

theorem tableFactor_lateral (hword : word.keyword? = some .LATERAL) (rest : List Token) :
    tableFactor (word :: rest) = innerFactor rest := by
  rw [tableFactor, Token.isKeyword_iff.mpr hword]
  rfl

theorem tableFactor_of_ne_lateral (hword : word.keyword? ≠ some .LATERAL) (rest : List Token) :
    tableFactor (word :: rest) = innerFactor (word :: rest) := by
  have hlateral : word.isKeyword .LATERAL = false := by simpa [Token.isKeyword] using hword
  rw [tableFactor, hlateral]
  rfl

/-! ## Items -/

theorem meaning_plain (h : token.isPlain = true) : Meaning (.item commas) [token] [] := by
  intro frames before _ _
  exact ⟨some token, isNeutral_of_isPlain h, Walks.cons (fun _ => referencesFrom_plain h) Walks.nil⟩

theorem meaning_comma : Meaning (.item true) [.comma] [] := by
  intro frames before _ hclosed
  exact ⟨some .comma, isNeutral_comma,
    Walks.cons (fun _ => referencesFrom_comma_closed (hclosed rfl)) Walks.nil⟩

theorem meaning_distinct (hword : word.keyword? = some .DISTINCT) (htoken : token.isPlain = true) :
    Meaning (.item commas) [word, token] [] := by
  intro frames before _ _
  refine ⟨some token, isNeutral_of_isPlain htoken, Walks.cons_inert hword rfl ?_⟩
  exact Walks.cons (fun _ => referencesFrom_plain htoken) Walks.nil

theorem meaning_distinctFrom {opener : Token} (hword : word.keyword? = some .DISTINCT)
    (hopener : opener.keyword? = some .FROM) (htoken : token.isPlain = true) :
    Meaning (.item commas) [word, opener, token] [] := by
  intro frames before _ _
  have hdistinct : (some word).any (·.isKeyword .DISTINCT) = true := Token.isKeyword_iff.mpr hword
  refine ⟨some token, isNeutral_of_isPlain htoken, Walks.cons_inert hword rfl ?_⟩
  refine Walks.cons (fun _ => referencesFrom_distinctFrom hopener hdistinct) ?_
  exact Walks.cons (fun _ => referencesFrom_plain htoken) Walks.nil

theorem meaning_groupItem (h : Meaning .group tokens names) :
    Meaning (.item commas) tokens names := by
  intro frames before hbefore _
  exact ⟨some .closeParen, isNeutral_closeParen, h.2 frames before hbefore.introduces⟩

theorem meaning_subqueryItem (h : Meaning .subquery tokens names) :
    Meaning (.item commas) tokens names := by
  intro frames before _ _
  exact ⟨some .closeParen, isNeutral_closeParen, h.2 frames before⟩

theorem meaning_noItems : Meaning (.items commas) [] [] := by
  intro frames before hbefore _
  exact ⟨before, hbefore, Walks.nil⟩

theorem meaning_moreItems (hfirst : Meaning (.item commas) first left)
    (hrest : Meaning (.items commas) rest right) :
    Meaning (.items commas) (first ++ rest) (left ++ right) := by
  intro frames before hbefore hclosed
  obtain ⟨between, hbetween, hwalk⟩ := hfirst frames before hbefore hclosed
  obtain ⟨last, hlast, hwalks⟩ := hrest frames between hbetween hclosed
  exact ⟨last, hlast, hwalk.append hwalks fun _ h => h⟩

/-! ## Groups and subqueries -/

theorem meaning_argument (hopen : token ≠ .openParen) (hclose : token ≠ .closeParen)
    (hintroduces : token.introducesTable = false) : Meaning .argument [token] [] := by
  intro frames before hquery _
  by_cases hcomma : token = .comma
  · subst hcomma
    have hclosed : (frames.current.query && frames.current.inFrom) = false := by
      rw [hquery, Bool.false_and]
    exact ⟨frames.current.inFrom, some .comma, rfl,
      Walks.cons (fun _ => referencesFrom_comma_closed hclosed) Walks.nil⟩
  · have hstructural : token.isStructural = false := by
      cases token <;> first | rfl | contradiction
    obtain ⟨inFrom, hstep⟩ := exists_referencesFrom_outsideQuery hstructural hquery
    exact ⟨inFrom, some token, hintroduces, Walks.cons hstep Walks.nil⟩

theorem meaning_argumentFrom (hword : word.introducesTable = true)
    (htoken : token.isPlain = true) : Meaning .argument [word, token] [] := by
  intro frames before hquery _
  have hstructural := Token.not_structural_of_introducesTable hword
  obtain ⟨inFrom, hstep⟩ := exists_referencesFrom_outsideQuery hstructural hquery
  refine ⟨inFrom, some token, (isNeutral_of_isPlain htoken).introduces, Walks.cons hstep ?_⟩
  exact Walks.cons (fun _ => referencesFrom_plain htoken) Walks.nil

theorem meaning_groupArgument (h : Meaning .group tokens names) :
    Meaning .argument tokens names := by
  intro frames before _ hbefore
  exact ⟨frames.current.inFrom, some .closeParen, rfl, h.2 frames before hbefore⟩

theorem meaning_subqueryArgument (h : Meaning .subquery tokens names) :
    Meaning .argument tokens names := by
  intro frames before _ _
  exact ⟨frames.current.inFrom, some .closeParen, rfl, h.2 frames before⟩

theorem meaning_noArguments : Meaning .arguments [] [] := by
  intro frames before _ hbefore
  exact ⟨frames.current.inFrom, before, hbefore, Walks.nil⟩

theorem meaning_moreArguments (hfirst : Meaning .argument first left)
    (hrest : Meaning .arguments rest right) :
    Meaning .arguments (first ++ rest) (left ++ right) := by
  intro frames before hquery hbefore
  obtain ⟨inFrom, between, hbetween, hwalk⟩ := hfirst frames before hquery hbefore
  obtain ⟨after, last, hlast, hwalks⟩ := hrest (frames.setInFrom inFrom) between hquery hbetween
  exact ⟨after, last, hlast, hwalk.append hwalks fun _ h => h⟩

theorem meaning_group (h : Meaning .arguments tokens names)
    (hfirst : tokens.head?.any Token.startsQuery = false) :
    Meaning .group (parenthesized tokens) names := by
  refine ⟨rfl, ?_⟩
  intro frames before hbefore
  obtain ⟨inFrom, last, -, hwalk⟩ := h (frames.push false) (some .openParen) rfl rfl
  exact Walks.parenthesized (by rw [hbefore, hfirst]; rfl) hwalk fun _ => trivial

/-- A group that starts with a parenthesis is walked through like a query, but no `FROM` opens. -/
theorem meaning_nestedGroup (h : Meaning (.items true) tokens names)
    (hfirst : tokens.head? = some .openParen) : Meaning .group (parenthesized tokens) names := by
  refine ⟨rfl, ?_⟩
  intro frames before hbefore
  obtain ⟨last, -, hwalk⟩ := h (frames.push true) (some .openParen) ⟨rfl, rfl⟩ fun _ => rfl
  exact Walks.parenthesized (by rw [hbefore, hfirst]; rfl) hwalk fun _ => trivial

theorem meaning_subquery (h : Meaning .query tokens names) :
    Meaning .subquery (parenthesized tokens) names := by
  obtain ⟨hstarts, hquery⟩ := h
  refine ⟨⟨tokens, hstarts, rfl⟩, ?_⟩
  intro frames before
  -- the flag is lost when the level of the subquery is left
  obtain ⟨inFrom, last, -, hwalk⟩ :=
    hquery (frames.push true) (some .openParen) ⟨rfl, rfl⟩ rfl rfl
  exact Walks.parenthesized (by rw [hstarts.head, Bool.or_true]) hwalk endsName_closeParen

theorem meaning_values (hword : word.keyword? = some .VALUES)
    (h : Meaning (.items true) tokens names) :
    Meaning .subquery (parenthesized (word :: tokens)) names := by
  have hstarts : StartsQuery (word :: tokens) := ⟨word, tokens, rfl, .VALUES, by simp, hword⟩
  refine ⟨⟨word :: tokens, hstarts, rfl⟩, ?_⟩
  intro frames before
  obtain ⟨last, -, hwalk⟩ := h (frames.push true) (some word)
    (isNeutral_of_keyword? hword (by decide)) fun _ => rfl
  exact Walks.parenthesized (by rw [hstarts.head, Bool.or_true]) (hwalk.cons_inert hword rfl)
    fun _ => trivial

/-! ## Tables -/

/-- The tokens of a name are passed by after any token, since the name is not empty. -/
theorem walks_of_isName {parts : List NamePart} (h : IsName tokens parts) (frames : Frames)
    (before : Option Token) :
    ∃ last, IsNeutral last ∧ Walks Anything frames before tokens [] frames last := by
  have hplain := isPlain_of_isName h
  obtain ⟨head, tail, rfl, -, hhead⟩ := exists_startsName h
  obtain ⟨last, hlast, hwalk⟩ :=
    walks_of_isPlain frames (isNeutral_of_isPlain hhead) fun next hmem =>
    hplain next (List.mem_cons_of_mem head hmem)
  exact ⟨last, hlast, Walks.cons (fun _ => referencesFrom_plain hhead) hwalk⟩

/-- Both readers read a name in the same way. -/
theorem factors_of_isName {parts : List NamePart} (h : IsName tokens parts) (rest : List Token) :
    tableFactor (tokens ++ rest) = namedFactor (tokens ++ rest) ∧
      innerFactor (tokens ++ rest) = namedFactor (tokens ++ rest) := by
  obtain ⟨head, tail, rfl, -, hplain⟩ := exists_startsName h
  have hinner : innerFactor (head :: (tail ++ rest)) = namedFactor (head :: (tail ++ rest)) :=
    innerFactor_of_isPlain _ hplain
  exact ⟨(tableFactor_of_isPlain _ hplain).trans hinner, hinner⟩

/-- A name before a parenthesis is a function. -/
theorem meaning_function {parts : List NamePart} (hname : IsName first parts)
    (hparen : tokens.head? = some .openParen)
    (hwalk : ∀ (frames : Frames) (before : Option Token), before.any Token.introducesTable = false →
      Walks Anything frames before tokens names frames (some .closeParen)) :
    Meaning .source (first ++ tokens) names := by
  constructor
  · intro rest
    obtain ⟨inside, rfl⟩ : ∃ inside, tokens = .openParen :: inside := by
      cases tokens with
      | nil => cases hparen
      | cons token inside =>
          rw [List.head?_cons, Option.some.injEq] at hparen
          exact ⟨inside, hparen ▸ rfl⟩
    obtain ⟨htable, hinner⟩ := factors_of_isName hname (.openParen :: (inside ++ rest))
    rw [List.append_assoc, List.cons_append, htable, hinner, namedFactor_of_function hname]
    exact ⟨rfl, rfl⟩
  · intro frames before
    -- the walk passes the name and finds what stands in the arguments
    obtain ⟨last, hlast, hpass⟩ := walks_of_isName hname frames before
    exact ⟨some .closeParen, isNeutral_closeParen,
      hpass.append (hwalk frames last hlast.introduces) fun _ h => h⟩

theorem meaning_functionOfGroup {parts : List NamePart} (hname : IsName first parts)
    (h : Meaning .group tokens names) : Meaning .source (first ++ tokens) names :=
  meaning_function hname h.1 h.2

theorem meaning_functionOfSubquery {parts : List NamePart} (hname : IsName first parts)
    (h : Meaning .subquery tokens names) : Meaning .source (first ++ tokens) names := by
  obtain ⟨⟨inside, -, rfl⟩, hwalk⟩ := h
  exact meaning_function hname rfl fun frames before _ => hwalk frames before

theorem meaning_unnest (hword : word.keyword? = some .UNNEST) (h : Meaning .group tokens names) :
    Meaning .source (word :: tokens) names := by
  constructor
  · intro rest
    have hne : word.keyword? ≠ some .LATERAL := by
      rw [hword]
      decide
    have hinner : innerFactor (word :: (tokens ++ rest)) = .unnamed :=
      innerFactor_of_keyword? hword (by decide) (tokens ++ rest)
    rw [List.cons_append, tableFactor_of_ne_lateral hne, hinner]
    exact ⟨rfl, rfl⟩
  · intro frames before
    have hneutral := isNeutral_of_keyword? hword (by decide)
    exact ⟨some .closeParen, isNeutral_closeParen,
      (h.2 frames (some word) hneutral.introduces).cons_inert hword rfl⟩

theorem meaning_literal : Meaning .source [.other] [] := by
  refine ⟨fun rest => ⟨rfl, rfl⟩, ?_⟩
  intro frames before
  exact ⟨some .other, ⟨rfl, rfl⟩, Walks.cons (fun _ => referencesFrom_plain rfl) Walks.nil⟩

/-- Nothing is read at a subquery. -/
theorem meaning_derivedTable (h : Meaning .subquery tokens names) :
    Meaning .source tokens names := by
  obtain ⟨⟨inside, hstarts, rfl⟩, hwalk⟩ := h
  constructor
  · intro rest
    have hinner : innerFactor (inside ++ [.closeParen] ++ rest) = .unnamed :=
      innerFactor_of_startsQuery ((hstarts.append _).append _)
    rw [parenthesized, List.cons_append, tableFactor_openParen, innerFactor, hinner]
    exact ⟨rfl, rfl⟩
  · intro frames before
    exact ⟨some .closeParen, isNeutral_closeParen, hwalk frames before⟩

theorem meaning_name {parts : List NamePart} (h : IsName tokens parts) :
    Meaning (.factor introduced) tokens [⟨parts⟩] := by
  intro frames before _
  obtain ⟨last, hlast, hpass⟩ := walks_of_isName h frames before
  refine ⟨last, hlast, ?_, ?_⟩
  · intro rest hrest
    rw [(factors_of_isName h rest).1, namedFactor_of_isName h hrest, hpass rest trivial]
    rfl
  · intro rest hrest
    rw [(factors_of_isName h rest).2, namedFactor_of_isName h hrest, hpass rest trivial]
    rfl

theorem meaning_unnamed (h : Meaning .source tokens names) :
    Meaning (.factor introduced) tokens names := by
  intro frames before _
  obtain ⟨hread, hwalk⟩ := h
  obtain ⟨last, hlast, hwalk⟩ := hwalk frames before
  refine ⟨last, hlast, ?_, ?_⟩
  · intro rest _
    rw [(hread rest).1, hwalk rest trivial]
    rfl
  · intro rest _
    rw [(hread rest).2, hwalk rest trivial]
    rfl

theorem meaning_lateralSource (hword : word.keyword? = some .LATERAL)
    (h : Meaning .source tokens names) : Meaning (.factor introduced) (word :: tokens) names := by
  intro frames before _
  obtain ⟨hread, hwalk⟩ := h
  obtain ⟨last, hlast, hwalk⟩ := hwalk frames (some word)
  have hwalk : Walks Anything frames before (word :: tokens) names frames last :=
    hwalk.cons_inert hword rfl
  refine ⟨last, hlast, ?_, ?_⟩
  · intro rest _
    rw [hwalk rest trivial, List.cons_append, tableFactor_lateral hword, (hread rest).2]
    rfl
  · intro rest _
    rw [hwalk rest trivial, List.cons_append, innerFactor_of_keyword? hword (by decide)]
    rfl

/-- A parenthesized join is read as far as its first factor and walked through for the others, which
is why its level has to be that of a query if it has others. -/
theorem meaning_joinGroup {tail : List Token} (hfirst : Meaning (.factor false) first left)
    (htail : Meaning (.items false) tail middle) (hends : EndsName tail)
    (hrest : Meaning (.joins false) rest right)
    (hquery : introduced = true ∨ first.head? = some .openParen ∨ rest = []) :
    Meaning (.factor introduced) (parenthesized (first ++ (tail ++ rest)))
      (left ++ (middle ++ right)) := by
  intro frames before hintroduced
  obtain ⟨hendsRest, hjoins⟩ := hrest
  obtain ⟨query, hq⟩ : ∃ query, (before.any Token.introducesTable ||
      (first ++ (tail ++ rest)).head?.any Token.startsQuery) = query := ⟨_, rfl⟩
  -- a join after the first factor is only found on the level of a query
  have hlevel : rest ≠ [] → query = true := by
    intro hne
    rw [← hq]
    rcases hquery with hyes | hparen | hnone
    · rw [hintroduced hyes, Bool.true_or]
    · rw [List.head?_append, hparen]
      exact Bool.or_true _
    · exact absurd hnone hne
  obtain ⟨between, hbetween, -, hread⟩ :=
    hfirst (frames.push query) (some .openParen) fun h => absurd h Bool.false_ne_true
  obtain ⟨further, hfurther, htails⟩ :=
    htail (frames.push query) between hbetween fun h => absurd h Bool.false_ne_true
  obtain ⟨inFrom, last, -, hwalk⟩ :=
    hjoins (frames.push query) further hfurther hlevel fun h => absurd h Bool.false_ne_true
  -- both readers skip the parenthesis, so that they read the same first factor
  have hinside : ∀ after,
      (innerFactor (first ++ (tail ++ (rest ++ .closeParen :: after)))).reference?.toList ++
          referencesFrom frames before
            (.openParen :: (first ++ (tail ++ (rest ++ .closeParen :: after)))) =
        left ++ (middle ++ right) ++ referencesFrom frames (some .closeParen) after := by
    intro after
    have hfollow : EndsName (tail ++ (rest ++ .closeParen :: after)) :=
      hends.append (hendsRest.append (endsName_closeParen after))
    have hopens := opensQuery_parenthesized before (first ++ (tail ++ rest)) after
    rw [hq] at hopens
    simp only [List.append_assoc] at hopens
    have hpop : referencesFrom ((frames.push query).setInFrom inFrom) last (.closeParen :: after) =
        referencesFrom frames (some .closeParen) after := by
      rw [referencesFrom_closeParen, Frames.pop_setInFrom_push]
    calc (innerFactor (first ++ (tail ++ (rest ++ .closeParen :: after)))).reference?.toList ++
          referencesFrom frames before
            (.openParen :: (first ++ (tail ++ (rest ++ .closeParen :: after))))
        = left ++ referencesFrom (frames.push query) between
            (tail ++ (rest ++ .closeParen :: after)) := by
          rw [referencesFrom_openParen, hopens, hread _ hfollow]
      _ = left ++ (middle ++ referencesFrom (frames.push query) further
            (rest ++ .closeParen :: after)) := by rw [htails _ trivial]
      _ = left ++ (middle ++ (right ++ referencesFrom frames (some .closeParen) after)) := by
          rw [hwalk _ (endsName_closeParen after), hpop]
      _ = left ++ (middle ++ right) ++ referencesFrom frames (some .closeParen) after := by
          simp only [List.append_assoc]
  have htext : ∀ after, parenthesized (first ++ (tail ++ rest)) ++ after =
      .openParen :: (first ++ (tail ++ (rest ++ .closeParen :: after))) := by
    intro after
    simp [parenthesized]
  refine ⟨some .closeParen, isNeutral_closeParen, ?_, ?_⟩
  · intro after _
    rw [htext, tableFactor_openParen]
    exact hinside after
  · intro after _
    rw [htext, innerFactor]
    exact hinside after

theorem meaning_table {tail : List Token} (hfirst : Meaning (.factor introduced) first left)
    (htail : Meaning (.items false) tail right) (hends : EndsName tail) :
    Meaning (.table introduced) (first ++ tail) (left ++ right) := by
  intro frames before hintroduced
  obtain ⟨between, hbetween, hread, -⟩ := hfirst frames before hintroduced
  obtain ⟨last, hlast, hwalk⟩ := htail frames between hbetween fun h => absurd h Bool.false_ne_true
  refine ⟨last, hlast, ?_⟩
  intro rest hrest
  calc (tableFactor (first ++ tail ++ rest)).reference?.toList ++
        referencesFrom frames before (first ++ tail ++ rest)
      = left ++ referencesFrom frames between (tail ++ rest) := by
        rw [List.append_assoc, hread _ (hends.append hrest)]
    _ = left ++ right ++ referencesFrom frames last rest := by
        rw [hwalk rest trivial, List.append_assoc]

theorem meaning_lateralTable {tail : List Token} (hword : word.keyword? = some .LATERAL)
    (hfirst : Meaning (.factor true) first left) (htail : Meaning (.items false) tail right)
    (hends : EndsName tail) :
    Meaning (.table introduced) (word :: (first ++ tail)) (left ++ right) := by
  intro frames before _
  have hintroduces : (some word).any Token.introducesTable = true := by
    simp [Token.introducesTable, Token.isKeyword, hword]
  obtain ⟨between, hbetween, -, hread⟩ := hfirst frames (some word) fun _ => hintroduces
  obtain ⟨last, hlast, hwalk⟩ := htail frames between hbetween fun h => absurd h Bool.false_ne_true
  refine ⟨last, hlast, ?_⟩
  intro rest hrest
  -- the walk does not heed `LATERAL`, and the reader skips it
  have hpass : referencesFrom frames before (word :: (first ++ (tail ++ rest))) =
      referencesFrom frames (some word) (first ++ (tail ++ rest)) := by
    apply referencesFrom_inert (Token.isStructural_of_keyword? hword)
    intro keyword hkeyword
    rw [hword, Option.some.injEq] at hkeyword
    exact hkeyword ▸ rfl
  calc (tableFactor (word :: (first ++ tail) ++ rest)).reference?.toList ++
        referencesFrom frames before (word :: (first ++ tail) ++ rest)
      = (innerFactor (first ++ (tail ++ rest))).reference?.toList ++
          referencesFrom frames (some word) (first ++ (tail ++ rest)) := by
        rw [List.cons_append, List.append_assoc, tableFactor_lateral hword, hpass]
    _ = left ++ referencesFrom frames between (tail ++ rest) := hread _ (hends.append hrest)
    _ = left ++ right ++ referencesFrom frames last rest := by
        rw [hwalk rest trivial, List.append_assoc]

/-! ## Joins -/

theorem meaning_join (hword : word.keyword? = some .JOIN) (h : Meaning (.table true) tokens names) :
    Meaning (.join commas) (word :: tokens) names := by
  refine ⟨by simp, endsName_of_keyword? hword tokens, ?_⟩
  intro frames before _ hquery _
  have hintroduces : (some word).any Token.introducesTable = true := by
    simp [Token.introducesTable, Token.isKeyword, hword]
  obtain ⟨last, hlast, hread⟩ := h (frames.setInFrom true) (some word) fun _ => hintroduces
  exact ⟨last, hlast, hread.cons_opener (.inl hword) hquery⟩

theorem meaning_commaJoin (h : Meaning (.table false) tokens names) :
    Meaning (.join true) (.comma :: tokens) names := by
  refine ⟨by simp, endsName_comma tokens, ?_⟩
  intro frames before _ hquery hinFrom
  obtain ⟨last, hlast, hread⟩ := h frames (some .comma) fun h => absurd h Bool.false_ne_true
  have hopen : frames.setInFrom true = frames := by rw [← hinFrom rfl, Frames.setInFrom_self]
  rw [hopen]
  exact ⟨last, hlast, hread.cons_comma (by rw [hquery, hinFrom rfl]; rfl)⟩

theorem meaning_noJoins : Meaning (.joins commas) [] [] := by
  refine ⟨endsName_nil, ?_⟩
  intro frames before hbefore _ _
  exact ⟨frames.current.inFrom, before, hbefore, Walks.nil⟩

theorem meaning_moreJoins (hfirst : Meaning (.join commas) first left)
    (hrest : Meaning (.joins commas) rest right) :
    Meaning (.joins commas) (first ++ rest) (left ++ right) := by
  obtain ⟨hne, hendsFirst, hjoin⟩ := hfirst
  obtain ⟨hendsRest, hjoins⟩ := hrest
  refine ⟨hendsFirst.append hendsRest, ?_⟩
  intro frames before hbefore hquery hinFrom
  have hquery : frames.current.query = true := hquery (by simp [hne])
  obtain ⟨between, hbetween, hwalk⟩ := hjoin frames before hbefore hquery hinFrom
  obtain ⟨inFrom, last, hlast, hwalks⟩ :=
    hjoins (frames.setInFrom true) between hbetween (fun _ => hquery) fun _ => rfl
  exact ⟨inFrom, last, hlast, hwalk.append hwalks fun _ h => hendsRest.append h⟩

/-! ## Queries -/

theorem meaning_noClauses : Meaning .clauses [] [] := by
  refine ⟨endsName_nil, ?_⟩
  intro frames before hbefore
  exact ⟨frames.current.inFrom, before, hbefore, Walks.nil⟩

theorem meaning_moreClauses {keyword : Keyword} (hword : word.keyword? = some keyword)
    (hclause : keyword.startsClause = true) (hfirst : Meaning (.items true) first left)
    (hrest : Meaning .clauses rest right) :
    Meaning .clauses (word :: (first ++ rest)) (left ++ right) := by
  have hends := Keyword.endsFrom_of_startsClause hclause
  refine ⟨endsName_of_keyword? hword _, ?_⟩
  intro frames before _
  obtain ⟨between, hbetween, hwalk⟩ := hfirst (frames.setInFrom false) (some word)
    (isNeutral_of_endsFrom hword hends) fun _ => Bool.and_false _
  obtain ⟨inFrom, last, hlast, hwalks⟩ := hrest.2 (frames.setInFrom false) between hbetween
  exact ⟨inFrom, last, hlast, (hwalk.append hwalks fun _ h => h).cons_endsFrom hword hends⟩

/-- A query without a `FROM` clause. -/
theorem meaning_select {columns clauses : List Token} (hword : word.keyword? = some .SELECT)
    (hcolumns : Meaning (.items true) columns left) (hclauses : Meaning .clauses clauses right) :
    Meaning .core (word :: (columns ++ clauses)) (left ++ right) := by
  refine ⟨⟨word, _, rfl, .SELECT, by simp, hword⟩, ?_⟩
  intro frames before _
  obtain ⟨between, hbetween, hwalk⟩ := hcolumns (frames.setInFrom false) (some word)
    (isNeutral_of_endsFrom hword rfl) fun _ => Bool.and_false _
  obtain ⟨inFrom, last, hlast, hwalks⟩ := hclauses.2 (frames.setInFrom false) between hbetween
  exact ⟨inFrom, last, hlast,
    (hwalk.append hwalks fun _ h => h).weaken.cons_endsFrom hword rfl⟩

theorem meaning_selectFrom {opener : Token} {columns clauses : List Token}
    {further : List TableReference} (hword : word.keyword? = some .SELECT)
    (hcolumns : Meaning (.items true) columns left) (hopener : opener.keyword? = some .FROM)
    (hfirst : Meaning (.table true) first middle) (hrest : Meaning (.joins true) rest further)
    (hclauses : Meaning .clauses clauses right) :
    Meaning .core (word :: (columns ++ (opener :: (first ++ (rest ++ clauses)))))
      (left ++ (middle ++ (further ++ right))) := by
  refine ⟨⟨word, _, rfl, .SELECT, by simp, hword⟩, ?_⟩
  intro frames before hquery
  obtain ⟨hendsRest, hjoins⟩ := hrest
  obtain ⟨hendsClauses, hclauses⟩ := hclauses
  have hintroduces : (some opener).any Token.introducesTable = true := by
    simp [Token.introducesTable, Token.isKeyword, hopener]
  -- the columns, the first table, its joins and the clauses, in the order of the walk
  obtain ⟨last₁, hlast₁, hwalk₁⟩ := hcolumns (frames.setInFrom false) (some word)
    (isNeutral_of_endsFrom hword rfl) fun _ => Bool.and_false _
  obtain ⟨last₂, hlast₂, hread⟩ :=
    hfirst (frames.setInFrom true) (some opener) fun _ => hintroduces
  have hwalk₂ : Walks EndsName (frames.setInFrom false) last₁ (opener :: first) middle
      (frames.setInFrom true) last₂ :=
    hread.cons_opener (.inr ⟨hopener, hlast₁.distinct⟩) hquery
  obtain ⟨inFrom₃, last₃, hlast₃, hwalk₃⟩ :=
    hjoins (frames.setInFrom true) last₂ hlast₂ (fun _ => hquery) fun _ => rfl
  obtain ⟨inFrom, last, hlast, hwalk₄⟩ := hclauses (frames.setInFrom inFrom₃) last₃ hlast₃
  have hafter : Walks EndsName (frames.setInFrom true) last₂ (rest ++ clauses)
      (further ++ right) (frames.setInFrom inFrom) last :=
    hwalk₃.append hwalk₄.weaken fun _ h => hendsClauses.append h
  have hfrom : Walks EndsName (frames.setInFrom false) last₁
      ((opener :: first) ++ (rest ++ clauses)) (middle ++ (further ++ right))
      (frames.setInFrom inFrom) last :=
    hwalk₂.append hafter fun _ h => (hendsRest.append hendsClauses).append h
  exact ⟨inFrom, last, hlast,
    (hwalk₁.append hfrom fun _ _ => trivial).cons_endsFrom hword rfl⟩

theorem meaning_noSetOperations : Meaning .setOperations [] [] := by
  refine ⟨endsName_nil, ?_⟩
  intro frames before hbefore _
  exact ⟨frames.current.inFrom, before, hbefore, Walks.nil⟩

theorem meaning_moreSetOperations {keyword : Keyword} {modifiers core : List Token}
    (hword : word.keyword? = some keyword) (hoperator : keyword.isSetOperator = true)
    (hmodifiers : ∀ token ∈ modifiers, token.isPlain = true) (hcore : Meaning .core core left)
    (hrest : Meaning .setOperations rest right) :
    Meaning .setOperations (word :: (modifiers ++ (core ++ rest))) (left ++ right) := by
  have hends := Keyword.endsFrom_of_isSetOperator hoperator
  refine ⟨endsName_of_keyword? hword _, ?_⟩
  intro frames before _ hquery
  obtain ⟨last₁, -, hwalk₁⟩ := walks_of_isPlain (frames.setInFrom false)
    (isNeutral_of_endsFrom hword hends) hmodifiers
  obtain ⟨inFrom₂, last₂, hlast₂, hwalk₂⟩ := hcore.2 (frames.setInFrom false) last₁ hquery
  obtain ⟨inFrom, last, hlast, hwalk₃⟩ :=
    hrest.2 (frames.setInFrom inFrom₂) last₂ hlast₂ hquery
  have hafter := hwalk₂.append hwalk₃ fun _ h => hrest.1.append h
  exact ⟨inFrom, last, hlast,
    (hwalk₁.append hafter fun _ _ => trivial).cons_endsFrom hword hends⟩

theorem meaning_definition (hname : Meaning (.items false) first left)
    (h : Meaning .subquery tokens right) :
    Meaning .definitions (first ++ tokens) (left ++ right) := by
  intro frames before hbefore _
  obtain ⟨between, -, hwalk⟩ := hname frames before hbefore fun h => absurd h Bool.false_ne_true
  exact ⟨some .closeParen, isNeutral_closeParen,
    hwalk.append (h.2 frames between) fun _ h => h⟩

theorem meaning_moreDefinitions (hname : Meaning (.items false) first left)
    (h : Meaning .subquery tokens middle) (hrest : Meaning .definitions rest right) :
    Meaning .definitions (first ++ (tokens ++ (.comma :: rest))) (left ++ (middle ++ right)) := by
  intro frames before hbefore hclosed
  obtain ⟨between, -, hwalk⟩ := hname frames before hbefore fun h => absurd h Bool.false_ne_true
  obtain ⟨last, hlast, hwalks⟩ := hrest frames (some .comma) isNeutral_comma hclosed
  have hcomma : Walks Anything frames (some .closeParen) (.comma :: rest) right frames last :=
    Walks.cons (fun _ => referencesFrom_comma_closed hclosed) hwalks
  have hafter := (h.2 frames between).append hcomma fun _ h => h
  exact ⟨last, hlast, hwalk.append hafter fun _ h => h⟩

theorem meaning_query (hcore : Meaning .core first left)
    (hrest : Meaning .setOperations rest right) :
    Meaning .query (first ++ rest) (left ++ right) := by
  refine ⟨hcore.1.append rest, ?_⟩
  intro frames before _ hquery _
  obtain ⟨inFrom₁, last₁, hlast₁, hwalk₁⟩ := hcore.2 frames before hquery
  obtain ⟨inFrom, last, hlast, hwalk₂⟩ := hrest.2 (frames.setInFrom inFrom₁) last₁ hlast₁ hquery
  exact ⟨inFrom, last, hlast, hwalk₁.append hwalk₂ fun _ h => hrest.1.append h⟩

theorem meaning_withQuery {definitions : List Token} (hword : word.keyword? = some .WITH)
    (hdefinitions : Meaning .definitions definitions left) (hcore : Meaning .core first middle)
    (hrest : Meaning .setOperations rest right) :
    Meaning .query (word :: (definitions ++ (first ++ rest))) (left ++ (middle ++ right)) := by
  refine ⟨⟨word, _, rfl, .WITH, by simp, hword⟩, ?_⟩
  intro frames before _ hquery hinFrom
  have hneutral := isNeutral_of_keyword? hword (by decide)
  obtain ⟨last₁, hlast₁, hwalk₁⟩ :=
    hdefinitions frames (some word) hneutral (by rw [hinFrom, Bool.and_false])
  obtain ⟨inFrom, last, hlast, hwalk₂⟩ :=
    (meaning_query hcore hrest).2 frames last₁ hlast₁ hquery hinFrom
  exact ⟨inFrom, last, hlast, (hwalk₁.append hwalk₂ fun _ _ => trivial).cons_inert hword rfl⟩

theorem meaning_statement (hfirst : Meaning (.items true) first left)
    (hquery : Meaning .query rest right) : Meaning .statement (first ++ rest) (left ++ right) := by
  obtain ⟨between, hbetween, hwalk⟩ := hfirst .top none isNeutral_none fun _ => rfl
  obtain ⟨inFrom, last, -, hwalks⟩ := hquery.2 .top between hbetween rfl rfl
  have hall := (hwalk.append hwalks fun _ _ => trivial) [] endsName_nil
  rw [List.append_nil, referencesFrom_nil, List.append_nil] at hall
  show extractReferences (first ++ rest) = left ++ right
  rw [extractReferences_eq, hall]

/-! ## The theorem -/

theorem meaning_of_derives {phrase : Phrase} (h : Derives phrase tokens names) :
    Meaning phrase tokens names := by
  induction h with
  | plain h => exact meaning_plain h
  | comma => exact meaning_comma
  | distinct hword htoken => exact meaning_distinct hword htoken
  | distinctFrom hword hopener htoken => exact meaning_distinctFrom hword hopener htoken
  | groupItem _ ih => exact meaning_groupItem ih
  | subqueryItem _ ih => exact meaning_subqueryItem ih
  | noItems => exact meaning_noItems
  | moreItems _ _ hfirst hrest => exact meaning_moreItems hfirst hrest
  | argument hopen hclose hintroduces => exact meaning_argument hopen hclose hintroduces
  | argumentFrom hword htoken => exact meaning_argumentFrom hword htoken
  | groupArgument _ ih => exact meaning_groupArgument ih
  | subqueryArgument _ ih => exact meaning_subqueryArgument ih
  | noArguments => exact meaning_noArguments
  | moreArguments _ _ hfirst hrest => exact meaning_moreArguments hfirst hrest
  | group _ hfirst ih => exact meaning_group ih hfirst
  | nestedGroup _ hfirst ih => exact meaning_nestedGroup ih hfirst
  | subquery _ ih => exact meaning_subquery ih
  | values hword _ ih => exact meaning_values hword ih
  | functionOfGroup hname _ ih => exact meaning_functionOfGroup hname ih
  | functionOfSubquery hname _ ih => exact meaning_functionOfSubquery hname ih
  | unnest hword _ ih => exact meaning_unnest hword ih
  | literal => exact meaning_literal
  | derivedTable _ ih => exact meaning_derivedTable ih
  | name h => exact meaning_name h
  | unnamed _ ih => exact meaning_unnamed ih
  | lateralSource hword _ ih => exact meaning_lateralSource hword ih
  | joinGroup _ _ hends _ hquery hfirst htail hrest =>
      exact meaning_joinGroup hfirst htail hends hrest hquery
  | table _ _ hends hfirst htail => exact meaning_table hfirst htail hends
  | lateralTable hword _ _ hends hfirst htail => exact meaning_lateralTable hword hfirst htail hends
  | join hword _ ih => exact meaning_join hword ih
  | commaJoin _ ih => exact meaning_commaJoin ih
  | noJoins => exact meaning_noJoins
  | moreJoins _ _ hfirst hrest => exact meaning_moreJoins hfirst hrest
  | noClauses => exact meaning_noClauses
  | moreClauses hword hclause _ _ hfirst hrest =>
      exact meaning_moreClauses hword hclause hfirst hrest
  | select hword _ _ hcolumns hclauses => exact meaning_select hword hcolumns hclauses
  | selectFrom hword _ hopener _ _ _ hcolumns hfirst hrest hclauses =>
      exact meaning_selectFrom hword hcolumns hopener hfirst hrest hclauses
  | noSetOperations => exact meaning_noSetOperations
  | moreSetOperations hword hoperator hmodifiers _ _ hcore hrest =>
      exact meaning_moreSetOperations hword hoperator hmodifiers hcore hrest
  | definition _ _ hname ih => exact meaning_definition hname ih
  | moreDefinitions _ _ _ hname ih hrest => exact meaning_moreDefinitions hname ih hrest
  | query _ _ hcore hrest => exact meaning_query hcore hrest
  | withQuery hword _ _ _ hdefinitions hcore hrest =>
      exact meaning_withQuery hword hdefinitions hcore hrest
  | statement _ _ hfirst hquery => exact meaning_statement hfirst hquery

/-- **The walk is exact on the grammar.**  The references of a statement of the grammar are the
names in factor position, each once and in order. -/
theorem extractReferences_eq_of_derives (h : Derives .statement tokens names) :
    extractReferences tokens = names :=
  meaning_of_derives h

/-- A statement with a function that holds a `FROM`, a parenthesized join, a comma join, and a
subquery in its condition. -/
def joinedStatement : List Token :=
  [.word "SELECT" none, .word "f" none, .openParen, .word "y" none, .word "FROM" none,
    .word "z" none, .closeParen, .word "FROM" none, .openParen, .word "a" none, .word "JOIN" none,
    .word "b" none, .closeParen, .comma, .word "c" none, .word "WHERE" none, .openParen,
    .word "SELECT" none, .word "x" none, .word "FROM" none, .word "s" none, .period,
    .word "t" none, .closeParen]

/-- The names in factor position in `joinedStatement`. -/
def joinedNames : List TableReference :=
  [⟨[⟨"a", false⟩]⟩, ⟨[⟨"b", false⟩]⟩, ⟨[⟨"c", false⟩]⟩, ⟨[⟨"s", false⟩, ⟨"t", false⟩]⟩]

theorem derives_name (word : String) (h : (Token.word word none).isPlain = true)
    (introduced : Bool) :
    Derives (.table introduced) [.word word none] [⟨[⟨word, false⟩]⟩] :=
  .table (.name (.last (.word h))) .noItems endsName_nil

theorem references_joinedStatement :
    Derives .statement joinedStatement joinedNames ∧
      extractReferences joinedStatement = joinedNames := by
  have hfunction : Derives (.items true)
      [.word "f" none, .openParen, .word "y" none, .word "FROM" none, .word "z" none,
        .closeParen] [] := by
    have hgroup : Derives .group
        (parenthesized [.word "y" none, .word "FROM" none, .word "z" none]) [] := by
      refine .group (.moreArguments (.argument ?_ ?_ ?_)
        (.moreArguments (.argumentFrom ?_ ?_) .noArguments)) ?_ <;> decide
    exact .moreItems (.plain (by decide)) (.moreItems (.groupItem hgroup) .noItems)
  have hjoin : Derives (.table true)
      (parenthesized [.word "a" none, .word "JOIN" none, .word "b" none])
      [⟨[⟨"a", false⟩]⟩, ⟨[⟨"b", false⟩]⟩] := by
    have hfurther : Derives (.joins false) [.word "JOIN" none, .word "b" none]
        [⟨[⟨"b", false⟩]⟩] :=
      .moreJoins (.join (by decide) (derives_name "b" (by decide) true)) .noJoins
    exact .table (.joinGroup (.name (.last (.word (by decide)))) .noItems endsName_nil hfurther
      (.inl rfl)) .noItems endsName_nil
  have hcomma : Derives (.joins true) [.comma, .word "c" none] [⟨[⟨"c", false⟩]⟩] :=
    .moreJoins (.commaJoin (derives_name "c" (by decide) false)) .noJoins
  have hinner : Derives .query
      [.word "SELECT" none, .word "x" none, .word "FROM" none, .word "s" none, .period,
        .word "t" none] [⟨[⟨"s", false⟩, ⟨"t", false⟩]⟩] := by
    have hname : IsName [.word "s" none, .period, .word "t" none] [⟨"s", false⟩, ⟨"t", false⟩] :=
      .dotted 0 (.word (by decide)) (.last (.word (by decide)))
    exact .query (.selectFrom (by decide) (.moreItems (.plain (by decide)) .noItems) (by decide)
      (.table (.name hname) .noItems endsName_nil) .noJoins .noClauses) .noSetOperations
  have hcondition : Derives .clauses
      (.word "WHERE" none :: parenthesized [.word "SELECT" none, .word "x" none,
        .word "FROM" none, .word "s" none, .period, .word "t" none])
      [⟨[⟨"s", false⟩, ⟨"t", false⟩]⟩] :=
    .moreClauses (by decide : _ = some Keyword.WHERE) rfl
      (.moreItems (.subqueryItem (.subquery hinner)) .noItems) .noClauses
  have hstatement : Derives .statement joinedStatement joinedNames :=
    .statement .noItems (.query (.selectFrom (by decide) hfunction (by decide) hjoin hcomma
      hcondition) .noSetOperations)
  exact ⟨hstatement, extractReferences_eq_of_derives hstatement⟩

end TableLineage.Sql
