/-!
# Tokens

Tokens are what is left of SQL text without blanks and comments.  Only names, numbers and the
punctuation that structures names and queries are told apart; strings, operators and placeholders
are all `other`.
-/

namespace TableLineage.Sql

/-- The words that the scan for tables knows, written as SQL writes them. -/
inductive Keyword where
  | AS | DISTINCT | EXCEPT | FETCH | FROM | GROUP | HAVING | INTERSECT | JOIN | LATERAL | LIMIT
  | MATERIALIZED | NOT | OFFSET | ORDER | QUALIFY | RECURSIVE | RETURNING | SELECT | SET | UNION
  | UNNEST | UPDATE | VALUES | WHERE | WINDOW | WITH
  deriving DecidableEq, Repr

namespace Keyword

/-- The spelling in capitals. -/
def spelling : Keyword → String
  | AS => "AS"
  | DISTINCT => "DISTINCT"
  | EXCEPT => "EXCEPT"
  | FETCH => "FETCH"
  | FROM => "FROM"
  | GROUP => "GROUP"
  | HAVING => "HAVING"
  | INTERSECT => "INTERSECT"
  | JOIN => "JOIN"
  | LATERAL => "LATERAL"
  | LIMIT => "LIMIT"
  | MATERIALIZED => "MATERIALIZED"
  | NOT => "NOT"
  | OFFSET => "OFFSET"
  | ORDER => "ORDER"
  | QUALIFY => "QUALIFY"
  | RECURSIVE => "RECURSIVE"
  | RETURNING => "RETURNING"
  | SELECT => "SELECT"
  | SET => "SET"
  | UNION => "UNION"
  | UNNEST => "UNNEST"
  | UPDATE => "UPDATE"
  | VALUES => "VALUES"
  | WHERE => "WHERE"
  | WINDOW => "WINDOW"
  | WITH => "WITH"

/-- All keywords. -/
def all : List Keyword :=
  [AS, DISTINCT, EXCEPT, FETCH, FROM, GROUP, HAVING, INTERSECT, JOIN, LATERAL, LIMIT, MATERIALIZED,
    NOT, OFFSET, ORDER, QUALIFY, RECURSIVE, RETURNING, SELECT, SET, UNION, UNNEST, UPDATE, VALUES,
    WHERE, WINDOW, WITH]

/-- The keyword that a word spells when its ASCII letters are taken as capitals. -/
def ofWord? (word : String) : Option Keyword :=
  let capitals := word.toList.map Char.toUpper
  all.find? fun keyword => keyword.spelling.toList == capitals

end Keyword

/-- The marks that quote names. -/
inductive QuoteMark where
  | double
  | backtick
  | bracket
  deriving DecidableEq, Repr

namespace QuoteMark

/-- The character that opens a quoted name. -/
def opening : QuoteMark → Char
  | double => '"'
  | backtick => '\x60'
  | bracket => '['

/-- The character that closes a quoted name. -/
def closing : QuoteMark → Char
  | double => '"'
  | backtick => '\x60'
  | bracket => ']'

end QuoteMark

/-- A token of SQL text. -/
inductive Token where
  /-- A word; a quoted one without its quotes. -/
  | word (value : String) (quote : Option QuoteMark)
  | number (text : String)
  | comma
  | period
  | openParen
  | closeParen
  | openBracket
  | closeBracket
  | semicolon
  /-- Any other token. -/
  | other
  deriving DecidableEq, Repr

namespace Token

/-- The keyword that a token is; a quoted word is none. -/
def keyword? : Token → Option Keyword
  | word value none => Keyword.ofWord? value
  | _ => none

/-- Whether a token is the given keyword. -/
def isKeyword (token : Token) (keyword : Keyword) : Bool :=
  token.keyword? == some keyword

/-- Whether a token is a word, quoted or not. -/
def isWord : Token → Bool
  | word .. => true
  | _ => false

/-- Whether two tokens are of the same kind, whatever word or number they hold. -/
def sameKind : Token → Token → Bool
  | word .., word .. => true
  | number _, number _ => true
  | a, b => a == b

end Token

end TableLineage.Sql
