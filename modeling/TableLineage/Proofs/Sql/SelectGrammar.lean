import TableLineage.Proofs.Sql.Walk

/-!
# A grammar of queries

`Derives phrase tokens names` says that the tokens form a phrase of the grammar below and that
`names` are the names in factor position in them, in order.  The grammar is about where tables can
stand, and no more: an expression is any run of items.

    statement   ::= items query
    query       ::= [WITH definition {, definition}] core {setOperator plain* core}
    definition  ::= items subquery
    core        ::= SELECT items [FROM table joins] {clauseWord items}
    joins       ::= {JOIN table | , table}
    table       ::= [LATERAL] factor tail
    factor      ::= name | source | LATERAL source | ( factor tail {JOIN table} )
    source      ::= name group | name subquery | UNNEST group | subquery | literal
    item        ::= plain | , | DISTINCT plain | DISTINCT FROM plain | group | subquery
    subquery    ::= ( query ) | ( VALUES items )
    group       ::= ( ) | ( argument* ) | ( ( … items )
    argument    ::= token | FROM plain | group | subquery
    name        ::= part {.+ part}
    part        ::= word | [ plain* ]

A `tail` is a run of items without commas of its own that does not start with a period or a
parenthesis, since these would belong to the name before it: an alias, or a join condition.  A
definition and the items before a query may be empty, an argument may be any word that introduces no
table, and several periods may stand between the parts of a name, so that the grammar is a little
wider than the usual one.

A parenthesized join has joins of its own only where it is recognised as one: directly after `FROM`,
`JOIN` or `LATERAL`, or where a parenthesis follows its parenthesis.  The flag of `Phrase.factor`
and `Phrase.table` says which of the two places it is.
-/

namespace TableLineage.Sql

namespace Keyword

/-- Whether a keyword starts a clause after the `FROM` clause. -/
def startsClause : Keyword → Bool
  | WHERE | GROUP | HAVING | ORDER | LIMIT | OFFSET | FETCH | QUALIFY | WINDOW => true
  | _ => false

def isSetOperator : Keyword → Bool
  | UNION | EXCEPT | INTERSECT => true
  | _ => false

/-- Whether a keyword shapes a statement and so stands in no expression. -/
def isReserved : Keyword → Bool
  | FROM | JOIN | LATERAL | DISTINCT | SELECT | WITH | VALUES | UNNEST => true
  | keyword => keyword.endsFrom

theorem endsFrom_of_startsClause {keyword : Keyword} (h : keyword.startsClause = true) :
    keyword.endsFrom = true := by
  cases keyword <;> first | rfl | cases h

theorem endsFrom_of_isSetOperator {keyword : Keyword} (h : keyword.isSetOperator = true) :
    keyword.endsFrom = true := by
  cases keyword <;> first | rfl | cases h

theorem isInert_of_not_reserved {keyword : Keyword} (h : keyword.isReserved = false) :
    keyword.isInert = true := by
  cases keyword <;> first | rfl | cases h

end Keyword

namespace Token

/-- Whether a token can stand anywhere in an expression. -/
def isPlain (token : Token) : Bool :=
  !(token.isStructural || token == .semicolon || token.keyword?.any Keyword.isReserved)

/-- Whether a group that starts with a token is a query wherever it stands. -/
def startsQuery (token : Token) : Bool :=
  token == .openParen || token.isKeyword .SELECT || token.isKeyword .WITH ||
    token.isKeyword .VALUES

end Token

/-- Tokens in parentheses. -/
def parenthesized (tokens : List Token) : List Token :=
  .openParen :: (tokens ++ [.closeParen])

/-- Whether tokens cannot continue a name that stands before them. -/
def EndsName (tokens : List Token) : Prop :=
  tokens.head? ≠ some .period ∧ tokens.head? ≠ some .openParen

/-! ## Names -/

/-- The spellings of one part of a name. -/
inductive IsNamePart : List Token → NamePart → Prop
  | word {value : String} {quote : Option QuoteMark} (h : (Token.word value quote).isPlain = true) :
      IsNamePart [.word value quote] ⟨value, quote.isSome⟩
  | bracketed {inside : List Token}
      (hinside : ∀ token ∈ inside, token.isPlain = true ∧ token ≠ .closeBracket)
      (hwords : inside.filterMap bracketWord? ≠ []) :
      IsNamePart (.openBracket :: (inside ++ [.closeBracket]))
        ⟨" ".intercalate (inside.filterMap bracketWord?), true⟩

/-- The spellings of a dotted name. -/
inductive IsName : List Token → List NamePart → Prop
  | last {tokens : List Token} {part : NamePart} (h : IsNamePart tokens part) :
      IsName tokens [part]
  | dotted {first rest : List Token} {part : NamePart} {parts : List NamePart} (periods : Nat)
      (hfirst : IsNamePart first part) (hrest : IsName rest parts) :
      IsName (first ++ (.period :: List.replicate periods .period) ++ rest) (part :: parts)

/-! ## Phrases -/

/-- The phrases of the grammar. -/
inductive Phrase where
  /-- A piece of an expression, with commas or without. -/
  | item (commas : Bool)
  | items (commas : Bool)
  /-- A piece of a group that is no query. -/
  | argument
  | arguments
  /-- Parentheses that hold no query. -/
  | group
  | subquery
  /-- A table without a name of its own. -/
  | source
  /-- What stands for a table, possibly after a word that introduces tables. -/
  | factor (introduced : Bool)
  /-- A factor with its alias and condition. -/
  | table (introduced : Bool)
  /-- A further table, with or without commas between tables. -/
  | join (commas : Bool)
  | joins (commas : Bool)
  | clauses
  | core
  | setOperations
  /-- The common table expressions of a query. -/
  | definitions
  | query
  | statement

/-- The tokens form a phrase with the given names in factor position. -/
inductive Derives : Phrase → List Token → List TableReference → Prop
  -- items
  | plain {commas : Bool} {token : Token} (h : token.isPlain = true) :
      Derives (.item commas) [token] []
  | comma : Derives (.item true) [.comma] []
  | distinct {commas : Bool} {word token : Token} (hword : word.keyword? = some .DISTINCT)
      (htoken : token.isPlain = true) : Derives (.item commas) [word, token] []
  | distinctFrom {commas : Bool} {word opener token : Token}
      (hword : word.keyword? = some .DISTINCT) (hopener : opener.keyword? = some .FROM)
      (htoken : token.isPlain = true) : Derives (.item commas) [word, opener, token] []
  | groupItem {commas : Bool} {tokens : List Token} {names : List TableReference}
      (h : Derives .group tokens names) : Derives (.item commas) tokens names
  | subqueryItem {commas : Bool} {tokens : List Token} {names : List TableReference}
      (h : Derives .subquery tokens names) : Derives (.item commas) tokens names
  | noItems {commas : Bool} : Derives (.items commas) [] []
  | moreItems {commas : Bool} {first rest : List Token} {left right : List TableReference}
      (hfirst : Derives (.item commas) first left) (hrest : Derives (.items commas) rest right) :
      Derives (.items commas) (first ++ rest) (left ++ right)
  -- groups and subqueries
  | argument {token : Token} (hopen : token ≠ .openParen) (hclose : token ≠ .closeParen)
      (hintroduces : token.introducesTable = false) : Derives .argument [token] []
  | argumentFrom {word token : Token} (hword : word.introducesTable = true)
      (htoken : token.isPlain = true) : Derives .argument [word, token] []
  | groupArgument {tokens : List Token} {names : List TableReference}
      (h : Derives .group tokens names) : Derives .argument tokens names
  | subqueryArgument {tokens : List Token} {names : List TableReference}
      (h : Derives .subquery tokens names) : Derives .argument tokens names
  | noArguments : Derives .arguments [] []
  | moreArguments {first rest : List Token} {left right : List TableReference}
      (hfirst : Derives .argument first left) (hrest : Derives .arguments rest right) :
      Derives .arguments (first ++ rest) (left ++ right)
  | group {tokens : List Token} {names : List TableReference}
      (h : Derives .arguments tokens names) (hfirst : tokens.head?.any Token.startsQuery = false) :
      Derives .group (parenthesized tokens) names
  | nestedGroup {tokens : List Token} {names : List TableReference}
      (h : Derives (.items true) tokens names) (hfirst : tokens.head? = some .openParen) :
      Derives .group (parenthesized tokens) names
  | subquery {tokens : List Token} {names : List TableReference}
      (h : Derives .query tokens names) : Derives .subquery (parenthesized tokens) names
  | values {word : Token} {tokens : List Token} {names : List TableReference}
      (hword : word.keyword? = some .VALUES) (h : Derives (.items true) tokens names) :
      Derives .subquery (parenthesized (word :: tokens)) names
  -- tables
  | functionOfGroup {name tokens : List Token} {parts : List NamePart}
      {names : List TableReference} (hname : IsName name parts) (h : Derives .group tokens names) :
      Derives .source (name ++ tokens) names
  | functionOfSubquery {name tokens : List Token} {parts : List NamePart}
      {names : List TableReference} (hname : IsName name parts)
      (h : Derives .subquery tokens names) : Derives .source (name ++ tokens) names
  | unnest {word : Token} {tokens : List Token} {names : List TableReference}
      (hword : word.keyword? = some .UNNEST) (h : Derives .group tokens names) :
      Derives .source (word :: tokens) names
  | literal : Derives .source [.other] []
  | derivedTable {tokens : List Token} {names : List TableReference}
      (h : Derives .subquery tokens names) : Derives .source tokens names
  | name {introduced : Bool} {tokens : List Token} {parts : List NamePart}
      (h : IsName tokens parts) : Derives (.factor introduced) tokens [⟨parts⟩]
  | unnamed {introduced : Bool} {tokens : List Token} {names : List TableReference}
      (h : Derives .source tokens names) : Derives (.factor introduced) tokens names
  | lateralSource {introduced : Bool} {word : Token} {tokens : List Token}
      {names : List TableReference} (hword : word.keyword? = some .LATERAL)
      (h : Derives .source tokens names) : Derives (.factor introduced) (word :: tokens) names
  | joinGroup {introduced : Bool} {first tail rest : List Token}
      {left middle right : List TableReference} (hfirst : Derives (.factor false) first left)
      (htail : Derives (.items false) tail middle) (hends : EndsName tail)
      (hrest : Derives (.joins false) rest right)
      (hquery : introduced = true ∨ first.head? = some .openParen ∨ rest = []) :
      Derives (.factor introduced) (parenthesized (first ++ (tail ++ rest)))
        (left ++ (middle ++ right))
  | table {introduced : Bool} {first tail : List Token} {left right : List TableReference}
      (hfirst : Derives (.factor introduced) first left) (htail : Derives (.items false) tail right)
      (hends : EndsName tail) : Derives (.table introduced) (first ++ tail) (left ++ right)
  | lateralTable {introduced : Bool} {word : Token} {first tail : List Token}
      {left right : List TableReference} (hword : word.keyword? = some .LATERAL)
      (hfirst : Derives (.factor true) first left) (htail : Derives (.items false) tail right)
      (hends : EndsName tail) :
      Derives (.table introduced) (word :: (first ++ tail)) (left ++ right)
  | join {commas : Bool} {word : Token} {tokens : List Token} {names : List TableReference}
      (hword : word.keyword? = some .JOIN) (h : Derives (.table true) tokens names) :
      Derives (.join commas) (word :: tokens) names
  | commaJoin {tokens : List Token} {names : List TableReference}
      (h : Derives (.table false) tokens names) : Derives (.join true) (.comma :: tokens) names
  | noJoins {commas : Bool} : Derives (.joins commas) [] []
  | moreJoins {commas : Bool} {first rest : List Token} {left right : List TableReference}
      (hfirst : Derives (.join commas) first left) (hrest : Derives (.joins commas) rest right) :
      Derives (.joins commas) (first ++ rest) (left ++ right)
  -- queries
  | noClauses : Derives .clauses [] []
  | moreClauses {word : Token} {keyword : Keyword} {first rest : List Token}
      {left right : List TableReference} (hword : word.keyword? = some keyword)
      (hclause : keyword.startsClause = true) (hfirst : Derives (.items true) first left)
      (hrest : Derives .clauses rest right) :
      Derives .clauses (word :: (first ++ rest)) (left ++ right)
  | select {word : Token} {columns clauses : List Token} {left right : List TableReference}
      (hword : word.keyword? = some .SELECT) (hcolumns : Derives (.items true) columns left)
      (hclauses : Derives .clauses clauses right) :
      Derives .core (word :: (columns ++ clauses)) (left ++ right)
  | selectFrom {word opener : Token} {columns first rest clauses : List Token}
      {left middle further right : List TableReference} (hword : word.keyword? = some .SELECT)
      (hcolumns : Derives (.items true) columns left) (hopener : opener.keyword? = some .FROM)
      (hfirst : Derives (.table true) first middle) (hrest : Derives (.joins true) rest further)
      (hclauses : Derives .clauses clauses right) :
      Derives .core (word :: (columns ++ (opener :: (first ++ (rest ++ clauses)))))
        (left ++ (middle ++ (further ++ right)))
  | noSetOperations : Derives .setOperations [] []
  | moreSetOperations {word : Token} {keyword : Keyword} {modifiers core rest : List Token}
      {left right : List TableReference} (hword : word.keyword? = some keyword)
      (hoperator : keyword.isSetOperator = true)
      (hmodifiers : ∀ token ∈ modifiers, token.isPlain = true) (hcore : Derives .core core left)
      (hrest : Derives .setOperations rest right) :
      Derives .setOperations (word :: (modifiers ++ (core ++ rest))) (left ++ right)
  | definition {name tokens : List Token} {left right : List TableReference}
      (hname : Derives (.items false) name left) (h : Derives .subquery tokens right) :
      Derives .definitions (name ++ tokens) (left ++ right)
  | moreDefinitions {name tokens rest : List Token} {left middle right : List TableReference}
      (hname : Derives (.items false) name left) (h : Derives .subquery tokens middle)
      (hrest : Derives .definitions rest right) :
      Derives .definitions (name ++ (tokens ++ (.comma :: rest))) (left ++ (middle ++ right))
  | query {core rest : List Token} {left right : List TableReference}
      (hcore : Derives .core core left) (hrest : Derives .setOperations rest right) :
      Derives .query (core ++ rest) (left ++ right)
  | withQuery {word : Token} {definitions core rest : List Token}
      {left middle right : List TableReference} (hword : word.keyword? = some .WITH)
      (hdefinitions : Derives .definitions definitions left) (hcore : Derives .core core middle)
      (hrest : Derives .setOperations rest right) :
      Derives .query (word :: (definitions ++ (core ++ rest))) (left ++ (middle ++ right))
  | statement {first query : List Token} {left right : List TableReference}
      (hfirst : Derives (.items true) first left) (hquery : Derives .query query right) :
      Derives .statement (first ++ query) (left ++ right)

end TableLineage.Sql
