import TableLineage.Sql.Token
import TableLineage.Text.Search

/-!
# Statements, groups and cursors

Statements are the non-empty stretches of tokens between semicolons.  A group runs from an opening
parenthesis to the matching closing one, or to the end of the tokens if there is none.

A cursor is a position in a list of tokens that only moves forward.  Its position may lie past the
end, where there is nothing to read.
-/

namespace TableLineage.Sql

/-! ## Statements and groups -/

/-- The statements of a token list. -/
def splitStatements (tokens : List Token) : List (List Token) :=
  (Text.splitOnP (· == .semicolon) tokens).filter fun statement => !statement.isEmpty

/-- The number of tokens up to the parenthesis that closes an open group, that one included, when
`depth` further groups are open inside it; all tokens if nothing closes the group. -/
def groupLength (depth : Nat) : List Token → Nat
  | [] => 0
  | .openParen :: rest => groupLength (depth + 1) rest + 1
  | .closeParen :: rest =>
    match depth with
    | 0 => 1
    | inner + 1 => groupLength inner rest + 1
  | _ :: rest => groupLength depth rest + 1

/-- The number of tokens of the group at the start of the tokens, zero if none starts there. -/
def openingGroupLength : List Token → Nat
  | .openParen :: rest => groupLength 0 rest + 1
  | _ => 0

/-! ## Reading tokens in order -/

/-- A list of tokens and the position of the next one to read. -/
structure Cursor where
  tokens : List Token
  position : Nat
  deriving DecidableEq, Repr

namespace Cursor

/-- The tokens that are still to be read. -/
def rest (cursor : Cursor) : List Token :=
  cursor.tokens.drop cursor.position

/-- The next token. -/
def peek? (cursor : Cursor) : Option Token :=
  cursor.tokens[cursor.position]?

/-- The cursor a number of tokens further on. -/
def skip (cursor : Cursor) (count : Nat) : Cursor :=
  { cursor with position := cursor.position + count }

/-- Reads the next token, if there is one. -/
def advance (cursor : Cursor) : Option Token × Cursor :=
  match cursor.peek? with
  | some token => (some token, cursor.skip 1)
  | none => (none, cursor)

/-- Whether the next token is a keyword. -/
def atKeyword (cursor : Cursor) (keyword : Keyword) : Bool :=
  cursor.peek?.any (·.isKeyword keyword)

/-- Whether the next token is of the kind of a given one. -/
def atKind (cursor : Cursor) (token : Token) : Bool :=
  cursor.peek?.any (·.sameKind token)

/-- Moves past the next token if a condition holds, and tells whether it did. -/
def moveIf (cursor : Cursor) (condition : Bool) : Bool × Cursor :=
  (condition, if condition then cursor.skip 1 else cursor)

/-- Moves past the next token if it is a keyword. -/
def consumeKeyword (cursor : Cursor) (keyword : Keyword) : Bool × Cursor :=
  cursor.moveIf (cursor.atKeyword keyword)

/-- Moves past the next token if it is of the kind of a given one. -/
def consumeKind (cursor : Cursor) (token : Token) : Bool × Cursor :=
  cursor.moveIf (cursor.atKind token)

/-- Moves past the group that starts at the cursor, if one does. -/
def skipGroup (cursor : Cursor) : Cursor :=
  cursor.skip (openingGroupLength cursor.rest)

/-- Moves past the parenthesis that closes a group which is already open. -/
def skipToClose (cursor : Cursor) : Cursor :=
  cursor.skip (groupLength 0 cursor.rest)

end Cursor

end TableLineage.Sql
