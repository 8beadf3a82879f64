import TableLineage.Sql.Dialect
import TableLineage.Sql.Quoted
import TableLineage.Text.Utf8

/-!
# Comments

SQL text is a sequence of segments: comments, quoted text and single characters of code.  Comments
are stripped by writing spaces over them, as many as the comment has bytes, and keeping its line
ends, so that all else keeps its byte offset and its line.

A comment or quote that is never closed takes all of the remaining text with it.  That is not an
error: the rest is blanked too and the place is reported.
-/

namespace TableLineage.Sql

/-- What a segment of SQL text is. -/
inductive SegmentKind where
  /-- One character outside quotes and comments. -/
  | code
  /-- A string or quoted name with both its delimiters. -/
  | quoted
  | comment
  /-- A block comment that is not closed, and the rest of the text. -/
  | openComment
  /-- A string or quoted name that is not closed, and the rest of the text. -/
  | openQuote (quote : Char)
  deriving DecidableEq, Repr

/-- A stretch of SQL text of one kind. -/
structure Segment where
  kind : SegmentKind
  text : List Char
  deriving DecidableEq, Repr

/-! ## Cutting text into segments -/

/-- Whether a `$` after this character belongs to a word, such as `sys$objects`. -/
def endsWordBeforeDollar (before : Option Char) : Bool :=
  match before with
  | some c => c.isAlphanum || c == '_' || c == '$'
  | none => false

/-- The tag of a `$tag$` whose first `$` precedes the text; a digit after the `$` makes it a
placeholder such as `$1`. -/
def dollarTag? (text : List Char) : Option (List Char) :=
  let tag := text.takeWhile fun c => c.isAlphanum || c == '_'
  if (text.head?.map Char.isDigit).getD false then none
  else if text[tag.length]? = some '$' then some tag
  else none

/-- A quoted segment whose closing delimiter ends at position `close` after its first character, or
the rest of the text. -/
def quotedOr (quote : Char) (rest : List Char) (close : Option Nat) : SegmentKind × Nat :=
  match close with
  | some position => (.quoted, position + 1)
  | none => (.openQuote quote, rest.length)

/-- The kind of the segment that starts with `c`, and the number of characters it takes from the
`rest` of the text. -/
def segmentAt (rules : QuoteRules) (before : Option Char) (c : Char) (rest : List Char) :
    SegmentKind × Nat :=
  if c = '-' ∧ rest.head? = some '-' then
    (.comment, (rest.takeWhile (· != '\n')).length)
  else if c = '/' ∧ rest.head? = some '*' then
    match blockEnd? rules.nestedComments 0 rest.tail with
    | some position => (.comment, position + 1)
    | none => (.openComment, rest.length)
  else if c = '\'' then
    quotedOr c rest (closingQuote? c (if rules.backslashEscapes then some '\\' else none) rest)
  else if c = '"' ∨ (c = '\x60' ∧ rules.backtickNames) then
    quotedOr c rest (closingQuote? c none rest)
  else if c = '[' ∧ rules.bracketNames then
    quotedOr c rest (closingQuote? ']' none rest)
  else if c = '$' ∧ rules.dollarStrings ∧ !endsWordBeforeDollar before then
    match dollarTag? rest with
    | none => (.code, 0)
    | some tag =>
      let opening := tag.length + 1
      match afterDelimiter? ('$' :: tag ++ ['$']) (rest.drop opening) with
      | some position => (.quoted, opening + position)
      | none => (.openQuote c, rest.length)
  else
    (.code, 0)

/-- The segments of the text after its first `skip` characters, which belong to a segment that is
already cut off; `before` is the character before the text. -/
def segmentsFrom (rules : QuoteRules) (before : Option Char) : Nat → List Char → List Segment
  | _, [] => []
  | skip + 1, c :: rest => segmentsFrom rules (some c) skip rest
  | 0, c :: rest =>
    let (kind, more) := segmentAt rules before c rest
    ⟨kind, c :: rest.take more⟩ :: segmentsFrom rules (some c) more rest

/-- The segments of a text. -/
def segments (rules : QuoteRules) (sql : List Char) : List Segment :=
  segmentsFrom rules none 0 sql

/-! ## Stripping -/

/-- What is written over a character of a comment: itself if it ends a line, else as many spaces as
it has bytes. -/
def blanked (c : Char) : List Char :=
  if c = '\n' ∨ c = '\r' then [c] else List.replicate c.utf8Size ' '

/-- The text of a segment without comments. -/
def Segment.stripped (segment : Segment) : List Char :=
  match segment.kind with
  | .code | .quoted => segment.text
  | .comment | .openComment | .openQuote _ => segment.text.flatMap blanked

/-- A place from which on the rest of a text was blanked. -/
inductive StripIssue where
  | unterminatedBlockComment (offset : Nat)
  | unterminatedQuote (quote : Char) (offset : Nat)
  deriving DecidableEq, Repr

/-- The byte offset of the opening delimiter. -/
def StripIssue.offset : StripIssue → Nat
  | .unterminatedBlockComment offset | .unterminatedQuote _ offset => offset

/-- The issue of a segment that starts at a byte offset. -/
def Segment.issueAt? (segment : Segment) (offset : Nat) : Option StripIssue :=
  match segment.kind with
  | .openComment => some (.unterminatedBlockComment offset)
  | .openQuote quote => some (.unterminatedQuote quote offset)
  | .code | .quoted | .comment => none

/-- The issues of segments that start at a byte offset. -/
def issuesFrom (offset : Nat) : List Segment → List StripIssue
  | [] => []
  | segment :: rest =>
    (segment.issueAt? offset).toList ++ issuesFrom (offset + Text.byteLength segment.text) rest

/-- Text without comments, of the same length in bytes, and what went wrong. -/
structure Stripped where
  text : List Char
  issues : List StripIssue
  deriving DecidableEq, Repr

/-- The text with its comments blanked. -/
def stripComments (rules : QuoteRules) (sql : List Char) : Stripped where
  text := (segments rules sql).flatMap Segment.stripped
  issues := issuesFrom 0 (segments rules sql)

end TableLineage.Sql
