import TableLineage.Proofs.Sql.NameTokens

/-!
# Stretches of the walk

A stretch of tokens takes the walk from some levels to others and yields names, whatever the tokens
after it are (`Walks`).  Stretches are put together with `Walks.append`, and `Walks.parenthesized`
says that what happens in parentheses stays there.  Where a name may stand at the end of a stretch,
the tokens after it must not continue the name, which is the condition `follow`.

Ahead of a factor a name is read, and then the walk goes through the same tokens.  `ReadsAndWalks`
adds up the two.
-/

namespace TableLineage.Sql

/-! ## Stretches of a walk -/

/-- Whether a token has no effect on the token after it. -/
structure IsNeutral (token : Option Token) : Prop where
  introduces : token.any Token.introducesTable = false
  distinct : token.any (·.isKeyword .DISTINCT) = false

/-- No condition on what follows. -/
def Anything (_ : List Token) : Prop := True

/-- Over some tokens the walk finds names and comes from `frames` and the token `before` to `next`
and the token `last`, under a condition on what follows. -/
def Walks (follow : List Token → Prop) (frames : Frames) (before : Option Token)
    (tokens : List Token) (names : List TableReference) (next : Frames) (last : Option Token) :
    Prop :=
  ∀ rest, follow rest →
    referencesFrom frames before (tokens ++ rest) = names ++ referencesFrom next last rest

/-- The names are what is read ahead at some tokens and what the walk then finds in them. -/
def ReadsAndWalks (read : List Token → Factor) (frames : Frames) (before : Option Token)
    (tokens : List Token) (names : List TableReference) (last : Option Token) : Prop :=
  ∀ rest, EndsName rest →
    (read (tokens ++ rest)).reference?.toList ++ referencesFrom frames before (tokens ++ rest) =
      names ++ referencesFrom frames last rest

section

variable {frames middle next : Frames} {before between last : Option Token}
  {first second tokens : List Token} {left right names : List TableReference}
  {follow followFirst : List Token → Prop}

theorem Walks.nil : Walks follow frames before [] [] frames before :=
  fun _ _ => rfl

theorem Walks.weaken (h : Walks Anything frames before tokens names next last) :
    Walks follow frames before tokens names next last :=
  fun rest _ => h rest trivial

theorem Walks.append (hfirst : Walks followFirst frames before first left middle between)
    (hsecond : Walks follow middle between second right next last)
    (hfollow : ∀ rest, follow rest → followFirst (second ++ rest)) :
    Walks follow frames before (first ++ second) (left ++ right) next last := by
  intro rest hrest
  calc referencesFrom frames before (first ++ second ++ rest)
      = referencesFrom frames before (first ++ (second ++ rest)) := by rw [List.append_assoc]
    _ = left ++ referencesFrom middle between (second ++ rest) := hfirst _ (hfollow rest hrest)
    _ = left ++ (right ++ referencesFrom next last rest) := by rw [hsecond rest hrest]
    _ = left ++ right ++ referencesFrom next last rest := (List.append_assoc ..).symm

/-- A token before a stretch in which nothing is found. -/
theorem Walks.cons {token : Token}
    (htoken : ∀ rest, referencesFrom frames before (token :: rest) =
      referencesFrom middle (some token) rest)
    (htokens : Walks follow middle (some token) tokens names next last) :
    Walks follow frames before (token :: tokens) names next last := by
  intro rest hrest
  rw [List.cons_append, htoken]
  exact htokens rest hrest

/-- A word that ends clauses, before a stretch. -/
theorem Walks.cons_endsFrom {word : Token} {keyword : Keyword}
    (hword : word.keyword? = some keyword) (hends : keyword.endsFrom = true)
    (htokens : Walks follow (frames.setInFrom false) (some word) tokens names next last) :
    Walks follow frames before (word :: tokens) names next last :=
  Walks.cons (fun _ => referencesFrom_endsFrom hword hends) htokens

/-- A word without an effect, before a stretch. -/
theorem Walks.cons_inert {word : Token} {keyword : Keyword}
    (hword : word.keyword? = some keyword) (hinert : keyword.isInert = true)
    (htokens : Walks follow frames (some word) tokens names next last) :
    Walks follow frames before (word :: tokens) names next last := by
  apply Walks.cons _ htokens
  intro rest
  apply referencesFrom_inert (Token.isStructural_of_keyword? hword)
  intro other hother
  rw [hword, Option.some.injEq] at hother
  exact hother ▸ hinert

/-- A word that introduces a table, before a factor. -/
theorem ReadsAndWalks.cons_opener {word : Token}
    (hword : word.keyword? = some .JOIN ∨
      (word.keyword? = some .FROM ∧ before.any (·.isKeyword .DISTINCT) = false))
    (hquery : frames.current.query = true)
    (h : ReadsAndWalks tableFactor (frames.setInFrom true) (some word) tokens names last) :
    Walks EndsName frames before (word :: tokens) names (frames.setInFrom true) last := by
  intro rest hrest
  rw [List.cons_append, referencesFrom_opener hquery hword]
  exact h rest hrest

/-- A comma of an open `FROM` clause, before a factor. -/
theorem ReadsAndWalks.cons_comma
    (hopen : (frames.current.query && frames.current.inFrom) = true)
    (h : ReadsAndWalks tableFactor frames (some .comma) tokens names last) :
    Walks EndsName frames before (.comma :: tokens) names frames last := by
  intro rest hrest
  rw [List.cons_append, referencesFrom_comma_open hopen]
  exact h rest hrest

end

/-! ## Neutral tokens -/

theorem isNeutral_none : IsNeutral none := ⟨rfl, rfl⟩

theorem isNeutral_closeParen : IsNeutral (some .closeParen) := ⟨rfl, rfl⟩

theorem isNeutral_comma : IsNeutral (some .comma) := ⟨rfl, rfl⟩

theorem isNeutral_of_isPlain {token : Token} (h : token.isPlain = true) :
    IsNeutral (some token) := by
  have hfrom := Token.isKeyword_of_isPlain h .FROM rfl
  have hjoin := Token.isKeyword_of_isPlain h .JOIN rfl
  have hlateral := Token.isKeyword_of_isPlain h .LATERAL rfl
  have hdistinct := Token.isKeyword_of_isPlain h .DISTINCT rfl
  exact ⟨by simp [Token.introducesTable, hfrom, hjoin, hlateral], by simp [hdistinct]⟩

theorem isNeutral_of_keyword? {word : Token} {keyword : Keyword}
    (hword : word.keyword? = some keyword)
    (hother : keyword ∉ [Keyword.FROM, .JOIN, .LATERAL, .DISTINCT]) : IsNeutral (some word) := by
  simp only [List.mem_cons, List.not_mem_nil, or_false, not_or] at hother
  exact ⟨by simp [Token.introducesTable, Token.isKeyword, hword, hother],
    by simp [Token.isKeyword, hword, hother]⟩

theorem isNeutral_of_endsFrom {word : Token} {keyword : Keyword}
    (hword : word.keyword? = some keyword) (hends : keyword.endsFrom = true) :
    IsNeutral (some word) := by
  apply isNeutral_of_keyword? hword
  intro hmem
  simp only [List.mem_cons, List.not_mem_nil, or_false] at hmem
  rcases hmem with rfl | rfl | rfl | rfl <;> cases hends

/-- Plain tokens are passed by. -/
theorem walks_of_isPlain (frames : Frames) {before : Option Token} {tokens : List Token}
    (hbefore : IsNeutral before) (h : ∀ token ∈ tokens, token.isPlain = true) :
    ∃ last, IsNeutral last ∧ Walks Anything frames before tokens [] frames last := by
  induction tokens generalizing before with
  | nil => exact ⟨before, hbefore, Walks.nil⟩
  | cons token tokens ih =>
      have htoken := h token List.mem_cons_self
      obtain ⟨last, hlast, hwalk⟩ := ih (isNeutral_of_isPlain htoken) fun next hmem =>
        h next (List.mem_cons_of_mem token hmem)
      exact ⟨last, hlast, Walks.cons (fun _ => referencesFrom_plain htoken) hwalk⟩

/-! ## The end of a name -/

theorem endsName_nil : EndsName [] := by
  simp [EndsName]

theorem endsName_closeParen (rest : List Token) : EndsName (.closeParen :: rest) := by
  simp [EndsName]

theorem endsName_comma (rest : List Token) : EndsName (.comma :: rest) := by
  simp [EndsName]

theorem endsName_of_keyword? {word : Token} {keyword : Keyword}
    (h : word.keyword? = some keyword) (rest : List Token) : EndsName (word :: rest) := by
  obtain ⟨value, rfl, -⟩ := Token.exists_word_of_keyword? h
  simp [EndsName]

theorem EndsName.append {first second : List Token} (hfirst : EndsName first)
    (hsecond : EndsName second) : EndsName (first ++ second) := by
  cases first with
  | nil => exact hsecond
  | cons token first => exact hfirst

/-! ## Parentheses -/

theorem opensQuery_eq (before after : Option Token) :
    opensQuery before after =
      (before.any Token.introducesTable || after.any Token.startsQuery) := rfl

/-- The token before a stretch does not matter, as long as it is neutral. -/
theorem referencesFrom_of_isNeutral {frames : Frames} {before other : Option Token}
    (hbefore : IsNeutral before) (hother : IsNeutral other) (tokens : List Token) :
    referencesFrom frames before tokens = referencesFrom frames other tokens := by
  cases tokens with
  | nil => rfl
  | cons token rest =>
      have hstep : walkToken frames before token rest = walkToken frames other token rest := by
        simp only [walkToken, opensQuery_eq, hbefore.introduces, hbefore.distinct,
          hother.introduces, hother.distinct]
      rw [referencesFrom_cons, referencesFrom_cons, hstep]

/-- What follows an opening parenthesis decides on the group as its tokens do. -/
theorem opensQuery_parenthesized (before : Option Token) (tokens rest : List Token) :
    opensQuery before (tokens ++ .closeParen :: rest).head? =
      (before.any Token.introducesTable || tokens.head?.any Token.startsQuery) := by
  rw [opensQuery_eq]
  cases tokens <;> rfl

/-- A stretch in parentheses leaves the levels as they were. -/
theorem Walks.parenthesized {follow : List Token → Prop} {frames : Frames}
    {before last : Option Token} {tokens : List Token} {names : List TableReference}
    {query inFrom : Bool}
    (hquery : (before.any Token.introducesTable || tokens.head?.any Token.startsQuery) = query)
    (h : Walks follow (frames.push query) (some .openParen) tokens names
      ((frames.push query).setInFrom inFrom) last)
    (hfollow : ∀ rest, follow (.closeParen :: rest)) :
    Walks Anything frames before (parenthesized tokens) names frames (some .closeParen) := by
  intro rest _
  -- whether the group is a query is decided by what follows the parenthesis, here `tokens`
  have htext : Sql.parenthesized tokens ++ rest =
      .openParen :: (tokens ++ .closeParen :: rest) := by
    simp [Sql.parenthesized]
  calc referencesFrom frames before (Sql.parenthesized tokens ++ rest)
      = referencesFrom (frames.push query) (some .openParen) (tokens ++ .closeParen :: rest) := by
        rw [htext, referencesFrom_openParen, opensQuery_parenthesized, hquery]
    _ = names ++ referencesFrom ((frames.push query).setInFrom inFrom) last (.closeParen :: rest) :=
        h _ (hfollow rest)
    _ = names ++ referencesFrom frames (some .closeParen) rest := by
        rw [referencesFrom_closeParen, Frames.pop_setInFrom_push]

end TableLineage.Sql
