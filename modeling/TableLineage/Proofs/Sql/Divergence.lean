import TableLineage.Proofs.Sql.Pieces

/-!
# Where comments are stripped in another way than they are read

The comment stripper and the tokenizer read the same rules of quoting but are two readers, and the
stripper does not know all that the tokenizer knows.  `Divergence` lists the lexemes that it may
misjudge:

* a line comment of the Snowflake dialect that starts with `#` or `//`: the stripper takes its text
  for code;
* a block comment of the generic dialect that starts with `!` and is read as SQL text: the stripper
  blanks it like any other;
* a string after letters that closes in its own way, such as `e'...\'...'` or `q'[...]'`;
* a dollar string after a word, or whose tag starts with a digit or is not ASCII;
* a word that holds a sign, such as `@@'`, or a dollar sign after a letter that is not ASCII;
* an operator whose last dash or slash starts a comment with the next character, as in `#--`.

A lexeme of such a form does no harm as long as segments end where it ends.  `divergences` are the
lexemes of a text where they do not.
-/

namespace TableLineage.Sql

namespace SegmentKind

/-- Whether stripping leaves a segment as it is. -/
def isKept : SegmentKind → Bool
  | code | quoted => true
  | comment | openComment | openQuote _ => false

/-- Whether a segment is closed. -/
def isClosed : SegmentKind → Bool
  | code | quoted | comment => true
  | openComment | openQuote _ => false

end SegmentKind

/-- The forms of lexemes at which the segments of a text may leave the lexemes. -/
inductive Divergence where
  /-- A comment to the end of the line that starts with `#` or `//`. -/
  | lineComment
  /-- A block comment that is read as SQL text. -/
  | hint
  /-- A string after letters that does not close as a string without letters does. -/
  | letteredString
  /-- A dollar string whose opening tag is none for the stripper. -/
  | dollarString
  /-- A word that holds a character which starts a quote or a comment. -/
  | word
  /-- An operator that ends in a dash or a slash. -/
  | operator
  deriving DecidableEq, Repr

/-- Whether each dollar sign follows an ASCII letter, a digit, an underscore or a dollar sign. -/
def dollarsFollowWord (before : Option Char) : List Char → Bool
  | [] => true
  | c :: rest => (c != '$' || endsWordBeforeDollar before) && dollarsFollowWord (some c) rest

/-- Whether the letters in front of a string, of which `c` is the first, let it close in its own
way. -/
def closesItsOwnWay (dialect : Dialect) (c : Char) (rest : List Char) : Bool :=
  match c.toLower with
  | 'e' | 'q' | 'r' => true
  | 'x' => !dialect.quoteRules.backslashEscapes
  | 'n' => rest.head? != some '\''
  | _ => false

namespace Piece

/-- Whether the segments from the start of a piece on end where it ends and are of accepted
kinds. -/
def isCovered (dialect : Dialect) (accept : SegmentKind → Bool) (piece : Piece) : Bool :=
  covers dialect.quoteRules accept piece.before 0 (piece.more + 1) (piece.first :: piece.rest)

/-- Whether a piece is a dollar string. -/
def isDollarString (piece : Piece) : Bool :=
  piece.first == '$' && (piece.rest.take piece.more).contains '$'

/-- Whether the stripper takes the dollar sign that starts a piece for the start of a string. -/
def opensDollarString (piece : Piece) : Bool :=
  !endsWordBeforeDollar piece.before && (dollarTag? piece.rest).isSome

/-- Whether a piece of more than one character ends in a dash or a slash. -/
def endsInMark (piece : Piece) : Bool :=
  piece.more != 0 && (piece.text.getLast? == some '-' || piece.text.getLast? == some '/')

/-- Whether a word has only characters that go on words, and dollar signs only after ASCII ones. -/
def isTidyWord (dialect : Dialect) (piece : Piece) : Bool :=
  piece.text.all dialect.continuesWord && dollarsFollowWord piece.before piece.text

/-- The form that makes a token liable to be misjudged. -/
def form? (dialect : Dialect) (piece : Piece) : Token → Option Divergence
  | .word _ none => if piece.isTidyWord dialect then none else some .word
  | .other =>
    if closesItsOwnWay dialect piece.first piece.rest then some .letteredString
    else if piece.isDollarString && !piece.opensDollarString then some .dollarString
    else if piece.endsInMark then some .operator
    else none
  | _ => none

/-- Whether a comment to the end of the line starts with `#` or `//`. -/
def isMarkedLine (piece : Piece) : Bool :=
  piece.first == '#' || piece.first == '/'

/-- Whether the segments of a blank or a line comment end with it, and no block comment starts in
the two slashes of a line comment. -/
def isHarmlessLine (dialect : Dialect) (piece : Piece) : Bool :=
  piece.isCovered dialect SegmentKind.isClosed &&
    !(piece.first == '/' && piece.rest.tail.head? == some '*')

/-- Whether it shows in the tokens of a text that a block comment stands for other lexemes: it holds
tokens, or it holds nothing and leaves a word right before a period and an underscore. -/
def showsHint (dialect : Dialect) (piece : Piece) : Bool :=
  (piece.standsFor dialect).any (fun lexeme => lexeme.token?.isSome) ||
    (piece.leavesWord dialect && ['.', '_'].isPrefixOf piece.after)

/-- Whether the segments of a text keep step with a piece: they end with it and leave a token as it
is, and a block comment shows nothing. -/
def isInStep (dialect : Dialect) (piece : Piece) : Bool :=
  match piece.lexeme with
  | .token _ => piece.isCovered dialect SegmentKind.isKept
  | .gap => piece.isHarmlessLine dialect
  | .blockComment _ => !piece.showsHint dialect

/-- The form of a piece where the segments of a text leave its lexemes. -/
def divergence? (dialect : Dialect) (piece : Piece) : Option Divergence :=
  match piece.lexeme with
  | .gap =>
    if piece.isMarkedLine && !piece.isHarmlessLine dialect then some .lineComment else none
  | .blockComment _ => if piece.showsHint dialect then some .hint else none
  | .token token =>
    if piece.isCovered dialect SegmentKind.isKept then none else piece.form? dialect token

end Piece

/-- The forms of the lexemes at which the segments of a text leave its lexemes, in their order. -/
def divergences (dialect : Dialect) (sql : List Char) : List Divergence :=
  (pieces dialect sql).filterMap (Piece.divergence? dialect)

end TableLineage.Sql
