import TableLineage.Text.Classes
import TableLineage.Text.Lowercase

/-!
# SQL dialects

A dialect decides how SQL text is cut into words, quoted names, strings and comments.  It decides
nothing else: which words name tables is the same for all dialects.
-/

namespace TableLineage.Sql

/-- The dialects that SQL files can be written in. -/
inductive Dialect where
  | generic
  | duckdb
  | snowflake
  | mssql
  deriving DecidableEq, Repr

namespace Dialect

/-- The name under which a dialect is configured and reported. -/
def name : Dialect → String
  | generic => "generic"
  | duckdb => "duckdb"
  | snowflake => "snowflake"
  | mssql => "mssql"

/-- All dialects, in the order in which messages list them. -/
def all : List Dialect :=
  [generic, duckdb, snowflake, mssql]

/-- A name that no dialect goes by. -/
structure Unknown where
  name : String
  deriving DecidableEq, Repr

/-- The text of the error. -/
def Unknown.message (unknown : Unknown) : String :=
  s!"[S001] Unknown SQL dialect '{unknown.name}' " ++
    "(expected one of: generic, duckdb, snowflake, mssql)"

/-- The dialect of a name in any letter case; `ansi` stands for the generic dialect and `tsql` for
the dialect of SQL Server. -/
def ofName (name : String) : Except Unknown Dialect :=
  match Text.lowercase name with
  | "generic" | "ansi" => .ok generic
  | "duckdb" => .ok duckdb
  | "snowflake" => .ok snowflake
  | "mssql" | "tsql" => .ok mssql
  | _ => .error ⟨name⟩

/-! ## Words -/

/-- Whether `@` and `#` may stand in words. -/
def hasSignedWords : Dialect → Bool
  | generic | mssql => true
  | duckdb | snowflake => false

/-- Whether a character other than `@` and `#` may start a word. -/
def startsWord (dialect : Dialect) (c : Char) : Bool :=
  match dialect with
  | snowflake => c.isAlpha || c == '_'
  | _ => Text.isLetter c || c == '_'

/-- Whether a character may go on a word. -/
def continuesWord (dialect : Dialect) (c : Char) : Bool :=
  match dialect with
  | generic | mssql =>
    Text.isLetter c || c.isDigit || c == '@' || c == '$' || c == '#' || c == '_'
  | duckdb => Text.isLetter c || c.isDigit || c == '$' || c == '_'
  | snowflake => c.isAlphanum || c == '$' || c == '_'

end Dialect

/-! ## Quotes and comments -/

/-- Where strings, quoted names and comments begin and end. -/
structure QuoteRules where
  /-- A backslash in a single-quoted string takes the next character into the string. -/
  backslashEscapes : Bool
  /-- `[name]` is a quoted name. -/
  bracketNames : Bool
  /-- A name may be quoted in backticks. -/
  backtickNames : Bool
  /-- `$$...$$` and `$tag$...$tag$` are strings. -/
  dollarStrings : Bool
  /-- Block comments nest. -/
  nestedComments : Bool
  deriving DecidableEq, Repr

/-- The rules of a dialect. -/
def Dialect.quoteRules : Dialect → QuoteRules
  | .generic => ⟨false, false, true, true, true⟩
  | .duckdb => ⟨false, false, true, true, false⟩
  | .snowflake => ⟨true, false, true, true, false⟩
  | .mssql => ⟨false, true, false, true, true⟩

end TableLineage.Sql
