import TableLineage.Sql.Lexeme
import TableLineage.Text.Utf8

/-!
# From text to tokens

`lexemes` cuts a text into lexemes or reports the first fault with its line.  `tokenize` keeps the
tokens only and recovers from a fault: it tries again on the lines before the faulty one, and gives
up if that fails too.
-/

namespace TableLineage.Sql

/-- A fault in SQL text and the line on which it is noticed. -/
structure LexError where
  cause : LexCause
  line : Nat
  deriving DecidableEq, Repr

/-- What becomes of a block comment: given whether a word precedes it, its line and its text, the
lexemes that stand in its place. -/
abbrev CommentReader := Bool → Nat → List Char → Except LexError (List Lexeme)

/-- The line after a character. -/
def lineAfter (line : Nat) (c : Char) : Nat :=
  if c = '\n' then line + 1 else line

/-- Whether a word ends the lexemes read so far, when `new` lexemes were added to them. -/
def endsInWord (afterWord : Bool) (new : List Lexeme) : Bool :=
  match new.getLast? with
  | some lexeme => lexeme.isWord
  | none => afterWord

/-- The lexemes that stand for one lexeme at a line. -/
def expand (onComment : CommentReader) (afterWord : Bool) (line : Nat) :
    Lexeme → Except LexError (List Lexeme)
  | .blockComment text => onComment afterWord line text
  | lexeme => .ok [lexeme]

/-- The lexemes of the text from `line` on, after its first `skip` characters, which belong to a
lexeme that is already read. -/
def lexemesFrom (dialect : Dialect) (onComment : CommentReader) (afterWord : Bool) (line : Nat) :
    Nat → List Char → Except LexError (List Lexeme)
  | _, [] => .ok []
  | skip + 1, c :: rest =>
    lexemesFrom dialect onComment afterWord (lineAfter line c) skip rest
  | 0, c :: rest =>
    match lexemeAt dialect afterWord c rest with
    | .error fault => .error ⟨fault.cause, line + Text.lineFeeds ((c :: rest).take fault.offset)⟩
    | .ok (lexeme, more) =>
      match expand onComment afterWord line lexeme with
      | .error error => .error error
      | .ok new =>
        match lexemesFrom dialect onComment (endsInWord afterWord new)
          (lineAfter line c) more rest with
        | .error error => .error error
        | .ok lexemes => .ok (new ++ lexemes)

/-- Keeps a block comment as it is. -/
def keepComment : CommentReader := fun _ _ text =>
  .ok [.blockComment text]

/-- Reads a block comment that starts with `!` as SQL text, less that mark and the digits after it,
if the dialect does so. -/
def readHint (dialect : Dialect) : CommentReader := fun afterWord line text =>
  match dialect, text with
  | .generic, '!' :: hint =>
    lexemesFrom dialect keepComment afterWord line 0 (hint.dropWhile Char.isDigit)
  | _, _ => .ok [.blockComment text]

/-- The lexemes of a text. -/
def lexemes (dialect : Dialect) (sql : List Char) : Except LexError (List Lexeme) :=
  lexemesFrom dialect (readHint dialect) false 1 0 sql

/-- The token of a lexeme, if it is one. -/
def Lexeme.token? : Lexeme → Option Token
  | token t => some t
  | _ => none

/-- The tokens of a text. -/
def tokens (dialect : Dialect) (sql : List Char) : Except LexError (List Token) :=
  (lexemes dialect sql).map fun found => found.filterMap Lexeme.token?

/-! ## Recovery -/

/-- How the tokens of a text were obtained. -/
inductive Recovery where
  | unneeded
  /-- The text before the line of the fault, its first `bytes` bytes, was taken. -/
  | cut (fault : LexError) (bytes : Nat)
  /-- The text before the line of the fault, its first `bytes` bytes, has a fault of its own. -/
  | failed (fault : LexError) (bytes : Nat) (again : LexError)
  deriving DecidableEq, Repr

/-- The tokens of a text and how they were obtained. -/
structure Tokenized where
  tokens : List Token
  recovery : Recovery
  deriving DecidableEq, Repr

/-- The tokens of a text, or of its lines before the first fault. -/
def tokenize (dialect : Dialect) (sql : List Char) : Tokenized :=
  match tokens dialect sql with
  | .ok found => ⟨found, .unneeded⟩
  | .error fault =>
    let bytes := Text.lineStart sql fault.line
    match tokens dialect (Text.beforeLine sql fault.line) with
    | .ok found => ⟨found, .cut fault bytes⟩
    | .error again => ⟨[], .failed fault bytes again⟩

end TableLineage.Sql
