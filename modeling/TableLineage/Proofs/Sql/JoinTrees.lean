import TableLineage.Proofs.Sql.GrammarReferences

/-!
# Parenthesized joins

A `FROM` clause is a list of join trees over named tables, in which any part may stand in
parentheses.  Without the parentheses all tables are found, from left to right.  With them the walk
still finds nothing else, but it may find less (`references_of_parenthesized_joins`).

A parenthesis opens a query for the walk if it stands after `FROM` or `JOIN` or if a parenthesis
follows it.  Any other group, even one in the place of a table, is taken for a list of expressions,
where `JOIN` introduces no table:

    FROM (a JOIN b ON …)                    a, b
    FROM x JOIN (a JOIN b ON …) ON …        x, a, b
    FROM x, (a JOIN b ON …)                 x, a
    FROM x, ((a JOIN b ON …) JOIN c ON …)   x, a, c

So parentheses change the tables that are found exactly if some parenthesized join stands in no such
place (`JoinTree.isRecognised`).

## Strategy

The first name of a tree is read ahead of it, at any depth of parentheses (`tableFactor_append`).
The others are found by the walk, one for each `JOIN` on the level of a query (`JoinTree.further`).
`JoinTree.IsWalked` says so under any levels and after any token.  It is shown for each kind of tree
(`isWalked_table`, `isWalked_join`, `isWalked_group`), so that the statement is an induction over
the tree and one over the list.  What is found is a sublist of all names and has all of them if and
only if no `JOIN` is passed by.
-/

namespace TableLineage.Sql

/-! ## Join trees -/

/-- Tokens that can stand anywhere in an expression. -/
structure PlainTokens where
  tokens : List Token
  isPlain : ∀ token ∈ tokens, token.isPlain = true

/-- A table of a `FROM` clause: its name and what stands behind it, such as an alias. -/
structure NamedTable where
  name : List Token
  parts : List NamePart
  isName : IsName name parts
  tail : PlainTokens
  endsName : EndsName tail.tokens

def NamedTable.tokens (table : NamedTable) : List Token :=
  table.name ++ table.tail.tokens

def selectWord : Token := .word "SELECT" none

def fromWord : Token := .word "FROM" none

def joinWord : Token := .word "JOIN" none

def onWord : Token := .word "ON" none

/-- A table, or tables that are joined, with or without parentheses. -/
inductive JoinTree where
  | table (named : NamedTable)
  | join (left right : JoinTree) (condition : PlainTokens)
  | group (inner : JoinTree)

namespace JoinTree

/-- The tree as SQL writes it. -/
def tokens : JoinTree → List Token
  | table named => named.tokens
  | join left right condition =>
    left.tokens ++ (joinWord :: (right.tokens ++ (onWord :: condition.tokens)))
  | group inner => parenthesized inner.tokens

/-- All names, from left to right. -/
def names : JoinTree → List TableReference
  | table named => [⟨named.parts⟩]
  | join left right _ => left.names ++ right.names
  | group inner => inner.names

/-- The tree without its parentheses. -/
def ungrouped : JoinTree → JoinTree
  | table named => table named
  | join left right condition => join left.ungrouped right.ungrouped condition
  | group inner => inner.ungrouped

/-- The first name. -/
def lead : JoinTree → TableReference
  | table named => ⟨named.parts⟩
  | join left _ _ => left.lead
  | group inner => inner.lead

def isJoin : JoinTree → Bool
  | join .. => true
  | table _ | group _ => false

/-- Whether a parenthesis stands first. -/
def startsWithGroup : JoinTree → Bool
  | table _ => false
  | join left _ _ => left.startsWithGroup
  | group _ => true

/-- What the walk finds behind the first name: the names after each `JOIN` on the level of a query.
`query` tells whether the tree is on such a level, `introduced` whether a word that introduces
tables stands directly before it. -/
def further (query introduced : Bool) : JoinTree → List TableReference
  | table _ => []
  | join left right _ =>
    left.further query introduced ++
      ((if query then [right.lead] else []) ++ right.further query true)
  | group inner => inner.further (introduced || inner.startsWithGroup) false

/-- What is found in a tree on the level of a query: the first name, which is read ahead, and the
others. -/
def found (introduced : Bool) (tree : JoinTree) : List TableReference :=
  tree.lead :: tree.further true introduced

/-- Whether all parenthesized joins stand directly after a word that introduces tables or start with
a parenthesis. -/
def isRecognised (introduced : Bool) : JoinTree → Bool
  | table _ => true
  | join left right _ => left.isRecognised introduced && right.isRecognised true
  | group inner =>
    (!inner.isJoin || introduced || inner.startsWithGroup) && inner.isRecognised false

end JoinTree

/-- Trees that follow another one, each after a comma. -/
def commaTokens (trees : List JoinTree) : List Token :=
  trees.flatMap fun tree => .comma :: tree.tokens

/-- The tables of a `FROM` clause, with commas between the trees. -/
structure FromClause where
  first : JoinTree
  rest : List JoinTree

namespace FromClause

/-- The query that selects everything from the tables. -/
def tokens (clause : FromClause) : List Token :=
  selectWord :: .other :: fromWord :: (clause.first.tokens ++ commaTokens clause.rest)

def names (clause : FromClause) : List TableReference :=
  clause.first.names ++ clause.rest.flatMap JoinTree.names

def ungrouped (clause : FromClause) : FromClause :=
  ⟨clause.first.ungrouped, clause.rest.map JoinTree.ungrouped⟩

/-- What is found in the tree after `FROM` and in those after commas. -/
def found (clause : FromClause) : List TableReference :=
  clause.first.found true ++ clause.rest.flatMap (JoinTree.found false)

def isRecognised (clause : FromClause) : Bool :=
  clause.first.isRecognised true && clause.rest.all (·.isRecognised false)

end FromClause

/-! ## The words of a join tree -/

theorem keyword?_selectWord : selectWord.keyword? = some .SELECT := by decide

theorem keyword?_fromWord : fromWord.keyword? = some .FROM := by decide

theorem keyword?_joinWord : joinWord.keyword? = some .JOIN := by decide

theorem isPlain_onWord : onWord.isPlain = true := by decide

theorem endsName_onWord (rest : List Token) : EndsName (onWord :: rest) := by
  simp [EndsName, onWord]

theorem introducesTable_fromWord : (some fromWord).any Token.introducesTable = true := by decide

theorem introducesTable_joinWord : (some joinWord).any Token.introducesTable = true := by decide

theorem Token.startsQuery_of_isPlain {token : Token} (h : token.isPlain = true) :
    token.startsQuery = false := by
  have hparen : (token == .openParen) = false := by
    cases token <;> first | rfl | cases h
  rw [startsQuery, hparen, isKeyword_of_isPlain h .SELECT rfl, isKeyword_of_isPlain h .WITH rfl,
    isKeyword_of_isPlain h .VALUES rfl]
  rfl

namespace JoinTree

variable {inner left right : JoinTree} {frames : Frames} {before last : Option Token}

/-! ## Reading ahead -/

theorem startsQuery_head?_append (tree : JoinTree) (rest : List Token) :
    (tree.tokens ++ rest).head?.any Token.startsQuery = tree.startsWithGroup := by
  induction tree generalizing rest with
  | table named =>
      obtain ⟨first, more, hname, -, hplain⟩ := exists_startsName named.isName
      rw [tokens, NamedTable.tokens, hname]
      exact Token.startsQuery_of_isPlain hplain
  | join left right condition ihLeft ihRight =>
      rw [tokens, List.append_assoc]
      exact ihLeft _
  | group inner ih => rfl

/-- Both readers take the first name of a tree, whatever parentheses stand before it. -/
theorem tableFactor_append (tree : JoinTree) {rest : List Token} (hrest : EndsName rest) :
    tableFactor (tree.tokens ++ rest) = .table tree.lead ∧
      innerFactor (tree.tokens ++ rest) = .table tree.lead := by
  induction tree generalizing rest with
  | table named =>
      have hfollow : EndsName (named.tail.tokens ++ rest) := named.endsName.append hrest
      obtain ⟨htable, hinner⟩ := factors_of_isName named.isName (named.tail.tokens ++ rest)
      rw [tokens, NamedTable.tokens, List.append_assoc, htable, hinner,
        namedFactor_of_isName named.isName hfollow]
      exact ⟨rfl, rfl⟩
  | join left right condition ihLeft ihRight =>
      -- a join is read as its left side, since a keyword ends the name
      rw [tokens, List.append_assoc]
      exact ihLeft (endsName_of_keyword? keyword?_joinWord _)
  | group inner ih =>
      have htext : parenthesized inner.tokens ++ rest =
          .openParen :: (inner.tokens ++ .closeParen :: rest) := by
        simp [parenthesized]
      have hinner := (ih (endsName_closeParen rest)).2
      rw [tokens, htext, tableFactor_openParen, innerFactor, hinner]
      exact ⟨rfl, rfl⟩

/-- What is read ahead of a tree comes before what the walk finds in it. -/
theorem readsAndWalks_of_walks (tree : JoinTree) {behind : List Token} {names : List TableReference}
    (hbehind : EndsName behind)
    (h : Walks EndsName frames before (tree.tokens ++ behind) names frames last) :
    ReadsAndWalks tableFactor frames before (tree.tokens ++ behind) (tree.lead :: names) last := by
  intro rest hrest
  have hread := (tree.tableFactor_append (hbehind.append hrest)).1
  rw [h rest hrest, List.append_assoc, hread]
  rfl

/-! ## Walking through a tree -/

/-- Under any levels and after any token the walk finds what `further` says.  It may open the `FROM`
clause of the level, but never closes it. -/
def IsWalked (tree : JoinTree) : Prop :=
  ∀ (frames : Frames) (before : Option Token), ∃ inFrom last, IsNeutral last ∧
    (frames.current.inFrom = true → inFrom = true) ∧
    Walks EndsName frames before tree.tokens
      (tree.further frames.current.query (before.any Token.introducesTable))
      (frames.setInFrom inFrom) last

theorem isWalked_table (named : NamedTable) : IsWalked (.table named) := by
  intro frames before
  obtain ⟨between, hbetween, hname⟩ := walks_of_isName named.isName frames before
  obtain ⟨last, hlast, htail⟩ := walks_of_isPlain frames hbetween named.tail.isPlain
  exact ⟨frames.current.inFrom, last, hlast, id, (hname.append htail fun _ h => h).weaken⟩

/-- The right side of a join, which stands after `JOIN`, and the condition. -/
theorem IsWalked.operand (h : IsWalked right) (condition : PlainTokens) (frames : Frames)
    {query : Bool} (hquery : frames.current.query = query) :
    ∃ inFrom last, IsNeutral last ∧ (frames.current.inFrom = true → inFrom = true) ∧
      Walks EndsName frames (some joinWord) (right.tokens ++ (onWord :: condition.tokens))
        (right.further query true) (frames.setInFrom inFrom) last := by
  obtain ⟨inFrom, between, -, hopen, hright⟩ := h frames (some joinWord)
  rw [introducesTable_joinWord, hquery] at hright
  obtain ⟨last, hlast, hcondition⟩ := walks_of_isPlain (frames.setInFrom inFrom)
    (isNeutral_of_isPlain isPlain_onWord) condition.isPlain
  have hon : Walks EndsName (frames.setInFrom inFrom) between (onWord :: condition.tokens) []
      (frames.setInFrom inFrom) last :=
    (Walks.cons (fun _ => referencesFrom_plain isPlain_onWord) hcondition).weaken
  have hwalk := hright.append hon fun _ _ => endsName_onWord _
  rw [List.append_nil] at hwalk
  exact ⟨inFrom, last, hlast, hopen, hwalk⟩

theorem isWalked_join (hleft : IsWalked left) (hright : IsWalked right) (condition : PlainTokens) :
    IsWalked (.join left right condition) := by
  intro frames before
  obtain ⟨inFrom, between, -, hopen, hwalk⟩ := hleft frames before
  have hfollow (after : List Token) : EndsName (joinWord :: after) :=
    endsName_of_keyword? keyword?_joinWord after
  cases hquery : frames.current.query with
  | true =>
      -- `JOIN` opens the clause of the level, and its table is read ahead
      obtain ⟨inFrom', last, hlast, hopen', hoperand⟩ :=
        hright.operand condition (frames.setInFrom true) hquery
      rw [hopen' rfl] at hoperand
      have hread := right.readsAndWalks_of_walks (endsName_onWord _) hoperand
      have hjoin : Walks EndsName (frames.setInFrom inFrom) between
          (joinWord :: (right.tokens ++ (onWord :: condition.tokens)))
          (right.lead :: right.further true true) (frames.setInFrom true) last :=
        hread.cons_opener (.inl keyword?_joinWord) hquery
      rw [hquery] at hwalk
      exact ⟨true, last, hlast, fun _ => rfl, hwalk.append hjoin fun _ _ => hfollow _⟩
  | false =>
      obtain ⟨inFrom', last, hlast, hopen', hoperand⟩ :=
        hright.operand condition (frames.setInFrom inFrom) hquery
      have hjoin : Walks EndsName (frames.setInFrom inFrom) between
          (joinWord :: (right.tokens ++ (onWord :: condition.tokens)))
          (right.further false true) (frames.setInFrom inFrom') last :=
        Walks.cons (fun _ => referencesFrom_outsideQuery (.inr keyword?_joinWord) hquery) hoperand
      rw [hquery] at hwalk
      exact ⟨inFrom', last, hlast, fun h => hopen' (hopen h),
        hwalk.append hjoin fun _ _ => hfollow _⟩

/-- The tokens around a parenthesis say whether its level is that of a query. -/
theorem isWalked_group (h : IsWalked inner) : IsWalked (.group inner) := by
  intro frames before
  have hlevel : (before.any Token.introducesTable || inner.tokens.head?.any Token.startsQuery) =
      (before.any Token.introducesTable || inner.startsWithGroup) := by
    rw [← inner.startsQuery_head?_append [], List.append_nil]
  obtain ⟨inFrom, last, -, -, hwalk⟩ :=
    h (frames.push (before.any Token.introducesTable || inner.startsWithGroup)) (some .openParen)
  exact ⟨frames.current.inFrom, some .closeParen, isNeutral_closeParen, id,
    (hwalk.parenthesized hlevel endsName_closeParen).weaken⟩

theorem isWalked (tree : JoinTree) : tree.IsWalked := by
  induction tree with
  | table named => exact isWalked_table named
  | join left right condition ihLeft ihRight => exact isWalked_join ihLeft ihRight condition
  | group inner ih => exact isWalked_group ih

/-- A tree of an open `FROM` clause, read and walked through. -/
theorem readsAndWalks (tree : JoinTree) (frames : Frames) (before : Option Token)
    (hquery : frames.current.query = true) (hinFrom : frames.current.inFrom = true) :
    ∃ last, ReadsAndWalks tableFactor frames before tree.tokens
      (tree.found (before.any Token.introducesTable)) last := by
  obtain ⟨inFrom, last, -, hopen, hwalk⟩ := tree.isWalked frames before
  rw [hopen hinFrom, ← hinFrom, Frames.setInFrom_self, hquery,
    ← List.append_nil tree.tokens] at hwalk
  have hread := tree.readsAndWalks_of_walks endsName_nil hwalk
  rw [List.append_nil] at hread
  exact ⟨last, hread⟩

end JoinTree

/-! ## Walking through a clause -/

theorem endsName_commaTokens (trees : List JoinTree) {rest : List Token} (hrest : EndsName rest) :
    EndsName (commaTokens trees ++ rest) := by
  cases trees with
  | nil => exact hrest
  | cons tree trees => exact endsName_comma _

/-- At each comma of the open clause a tree is read and then walked through. -/
theorem walks_commaTokens (trees : List JoinTree) (frames : Frames) (before : Option Token)
    (hquery : frames.current.query = true) (hinFrom : frames.current.inFrom = true) :
    ∃ last, Walks EndsName frames before (commaTokens trees)
      (trees.flatMap (JoinTree.found false)) frames last := by
  induction trees generalizing before with
  | nil => exact ⟨before, Walks.nil⟩
  | cons tree trees ih =>
      obtain ⟨between, hread⟩ := tree.readsAndWalks frames (some .comma) hquery hinFrom
      obtain ⟨last, hwalk⟩ := ih between
      have hcomma : Walks EndsName frames before (.comma :: tree.tokens) (tree.found false) frames
          between := hread.cons_comma (by rw [hquery, hinFrom]; rfl)
      exact ⟨last, hcomma.append hwalk fun _ hrest => endsName_commaTokens trees hrest⟩

theorem FromClause.extractReferences_tokens (clause : FromClause) :
    extractReferences clause.tokens = clause.found := by
  -- `SELECT` and `*` find nothing; at `FROM` the clause opens and the first tree is read
  obtain ⟨between, hread⟩ :=
    clause.first.readsAndWalks (Frames.top.setInFrom true) (some fromWord) rfl rfl
  rw [introducesTable_fromWord] at hread
  obtain ⟨last, hrest⟩ := walks_commaTokens clause.rest (Frames.top.setInFrom true) between rfl rfl
  have hfirst : Walks EndsName Frames.top (some .other) (fromWord :: clause.first.tokens)
      (clause.first.found true) (Frames.top.setInFrom true) between :=
    hread.cons_opener (.inr ⟨keyword?_fromWord, rfl⟩) rfl
  have hfrom := hfirst.append hrest fun _ hafter => endsName_commaTokens clause.rest hafter
  have hcolumns : Walks EndsName Frames.top (some selectWord)
      (.other :: (fromWord :: clause.first.tokens ++ commaTokens clause.rest)) clause.found
      (Frames.top.setInFrom true) last :=
    Walks.cons (fun _ => referencesFrom_plain rfl) hfrom
  have hwalk : Walks EndsName Frames.top none clause.tokens clause.found
      (Frames.top.setInFrom true) last :=
    Walks.cons_endsFrom keyword?_selectWord rfl hcolumns
  calc extractReferences clause.tokens
      = referencesFrom .top none (clause.tokens ++ []) := by
        rw [List.append_nil, extractReferences_eq]
    _ = clause.found ++ [] := hwalk [] endsName_nil
    _ = clause.found := List.append_nil _

/-! ## Found names among all names -/

/-- Sublists in a row fill a row only if each fills its part. -/
theorem append_eq_append_iff_of_sublist {α : Type} {left right wholeLeft wholeRight : List α}
    (hleft : left.Sublist wholeLeft) (hright : right.Sublist wholeRight) :
    left ++ right = wholeLeft ++ wholeRight ↔ left = wholeLeft ∧ right = wholeRight := by
  constructor
  · intro heq
    have hlength := congrArg List.length heq
    rw [List.length_append, List.length_append] at hlength
    have hle := hleft.length_le
    have hle' := hright.length_le
    exact ⟨hleft.eq_of_length (by omega), hright.eq_of_length (by omega)⟩
  · rintro ⟨rfl, rfl⟩
    rfl

namespace JoinTree

theorem names_ungrouped (tree : JoinTree) : tree.ungrouped.names = tree.names := by
  induction tree with
  | table named => rfl
  | join left right condition ihLeft ihRight => rw [ungrouped, names, ihLeft, ihRight, names]
  | group inner ih => exact ih

theorem isRecognised_ungrouped (tree : JoinTree) (introduced : Bool) :
    tree.ungrouped.isRecognised introduced = true := by
  induction tree generalizing introduced with
  | table named => rfl
  | join left right condition ihLeft ihRight =>
      rw [ungrouped, isRecognised, ihLeft, ihRight, Bool.and_self]
  | group inner ih => exact ih introduced

theorem names_eq_cons (tree : JoinTree) : tree.names = tree.lead :: tree.names.tail := by
  induction tree with
  | table named => rfl
  | join left right condition ihLeft ihRight =>
      rw [names, ihLeft]
      rfl
  | group inner ih => exact ih

theorem tail_names_join (left right : JoinTree) (condition : PlainTokens) :
    (join left right condition).names.tail =
      left.names.tail ++ ([right.lead] ++ right.names.tail) := by
  rw [names, left.names_eq_cons, List.singleton_append, ← right.names_eq_cons]
  rfl

/-- The lead of the right side, which is found on the level of a query. -/
theorem lead_sublist (query : Bool) (tree : JoinTree) :
    (if query then [tree.lead] else []).Sublist [tree.lead] := by
  cases query with
  | true => exact List.Sublist.refl _
  | false => exact List.nil_sublist _

theorem further_sublist (tree : JoinTree) (query introduced : Bool) :
    (tree.further query introduced).Sublist tree.names.tail := by
  induction tree generalizing query introduced with
  | table named => exact List.Sublist.refl _
  | join left right condition ihLeft ihRight =>
      rw [tail_names_join, further]
      exact (ihLeft query introduced).append
        ((lead_sublist query right).append (ihRight query true))
  | group inner ih => exact ih _ _

/-- All names are found behind the first one exactly if every `JOIN` is on the level of a query. -/
theorem further_eq_iff (tree : JoinTree) (query introduced : Bool) :
    tree.further query introduced = tree.names.tail ↔
      (tree.isJoin = true → query = true) ∧ tree.isRecognised introduced = true := by
  induction tree generalizing query introduced with
  | table named => simp [further, names, isJoin, isRecognised]
  | join left right condition ihLeft ihRight =>
      -- each part is found in full, since none can find more than it holds
      have hlead := lead_sublist query right
      have hright := right.further_sublist query true
      have hleft := left.further_sublist query introduced
      rw [further, tail_names_join, append_eq_append_iff_of_sublist hleft (hlead.append hright)]
      rw [append_eq_append_iff_of_sublist hlead hright, ihLeft, ihRight]
      cases query with
      | true => simp [isJoin, isRecognised]
      | false => simp [isJoin]
  | group inner ih =>
      -- what stands in the group is found on the level that the group opens
      have hgroup : inner.group.isJoin = false := rfl
      rw [further, names, ih, hgroup, isRecognised]
      cases inner.isJoin with
      | true => simp
      | false => simp

/-- On the level of a query all names are found exactly if all groups are recognised. -/
theorem found_eq_names_iff (tree : JoinTree) (introduced : Bool) :
    tree.found introduced = tree.names ↔ tree.isRecognised introduced = true := by
  rw [found, names_eq_cons, List.cons_inj_right, further_eq_iff]
  exact and_iff_right fun _ => rfl

theorem found_sublist (tree : JoinTree) (introduced : Bool) :
    (tree.found introduced).Sublist tree.names := by
  rw [names_eq_cons]
  exact (tree.further_sublist true introduced).cons_cons _

end JoinTree

namespace FromClause

theorem rest_sublist (trees : List JoinTree) :
    (trees.flatMap (JoinTree.found false)).Sublist (trees.flatMap JoinTree.names) := by
  induction trees with
  | nil => exact List.Sublist.refl _
  | cons tree trees ih => exact (tree.found_sublist false).append ih

theorem found_sublist (clause : FromClause) : clause.found.Sublist clause.names :=
  (clause.first.found_sublist true).append (rest_sublist clause.rest)

theorem rest_eq_iff (trees : List JoinTree) :
    trees.flatMap (JoinTree.found false) = trees.flatMap JoinTree.names ↔
      trees.all (·.isRecognised false) = true := by
  induction trees with
  | nil => simp
  | cons tree trees ih =>
      calc (tree :: trees).flatMap (JoinTree.found false) = (tree :: trees).flatMap JoinTree.names
          ↔ tree.found false = tree.names ∧
              trees.flatMap (JoinTree.found false) = trees.flatMap JoinTree.names :=
            append_eq_append_iff_of_sublist (tree.found_sublist false) (rest_sublist trees)
        _ ↔ tree.isRecognised false = true ∧ trees.all (·.isRecognised false) = true := by
            rw [tree.found_eq_names_iff, ih]
        _ ↔ (tree :: trees).all (·.isRecognised false) = true := by
            rw [List.all_cons, Bool.and_eq_true]

theorem found_eq_iff (clause : FromClause) :
    clause.found = clause.names ↔ clause.isRecognised = true := by
  calc clause.found = clause.names
      ↔ clause.first.found true = clause.first.names ∧
          clause.rest.flatMap (JoinTree.found false) = clause.rest.flatMap JoinTree.names :=
        append_eq_append_iff_of_sublist (clause.first.found_sublist true)
          (rest_sublist clause.rest)
    _ ↔ clause.first.isRecognised true = true ∧ clause.rest.all (·.isRecognised false) = true := by
        rw [clause.first.found_eq_names_iff, rest_eq_iff]
    _ ↔ clause.isRecognised = true := by rw [isRecognised, Bool.and_eq_true]

theorem found_ungrouped (clause : FromClause) : clause.ungrouped.found = clause.names := by
  have hnames : clause.ungrouped.names = clause.names := by
    simp only [ungrouped, names, JoinTree.names_ungrouped, List.flatMap_map]
  have hrecognised : clause.ungrouped.isRecognised = true := by
    simp [ungrouped, isRecognised, JoinTree.isRecognised_ungrouped]
  rw [← hnames]
  exact clause.ungrouped.found_eq_iff.mpr hrecognised

end FromClause

/-- **Parenthesized joins.**  Without parentheses the walk finds all tables of a `FROM` clause, from
left to right.  With them it finds a part of the same list, and the whole list if and only if every
parenthesized join stands directly after `FROM` or `JOIN` or starts with a parenthesis. -/
theorem references_of_parenthesized_joins (clause : FromClause) :
    extractReferences clause.ungrouped.tokens = clause.names ∧
      extractReferences clause.tokens = clause.found ∧
      (extractReferences clause.tokens).Sublist (extractReferences clause.ungrouped.tokens) ∧
      (extractReferences clause.tokens = extractReferences clause.ungrouped.tokens ↔
        clause.isRecognised = true) := by
  have hungrouped : extractReferences clause.ungrouped.tokens = clause.names := by
    rw [FromClause.extractReferences_tokens, clause.found_ungrouped]
  rw [hungrouped, clause.extractReferences_tokens]
  exact ⟨rfl, rfl, clause.found_sublist, clause.found_eq_iff⟩

/-- A join between parentheses loses its second table after a comma. -/
example :
    extractReferences (selectWord :: .other :: fromWord :: .word "x" none :: .comma ::
        parenthesized [.word "a" none, joinWord, .word "b" none, onWord, .other]) =
      [⟨[⟨"x", false⟩]⟩, ⟨[⟨"a", false⟩]⟩] := by
  decide +kernel

end TableLineage.Sql
