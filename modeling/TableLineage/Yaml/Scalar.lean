import TableLineage.Text.Digits
import TableLineage.Yaml.Line

/-!
# Scalars of YAML text

* Between single quotes only the quote itself is escaped, by doubling it.  Between double quotes a
  backslash starts an escape; before a line end it joins the lines without a space.  A quoted scalar
  may not hold a line that starts or ends a document.
* A plain scalar has no quotes.  It ends at a comment, at a colon before a gap, at a line that is
  indented too little, and within brackets at a comma or a bracket.
* A block scalar holds the lines after its header that are indented enough.  A literal one keeps its
  line ends; a folded one turns a single line feed between two lines that start without a space into
  a space.  The header says what becomes of the line ends after the last line, and can give the
  indentation, which else is that of the first line.
-/

namespace TableLineage.Yaml

/-! ## Quoted scalars -/

/-- What stands at a place of a quoted scalar that is not a gap. -/
inductive QuotedPiece where
  /-- A character, written with `more` characters after the first. -/
  | char (c : Char) (more : Nat)
  /-- An escaped line end. -/
  | join
  | close
  /-- An escape that means nothing. -/
  | fault
  deriving DecidableEq, Repr

/-- The piece of a single-quoted scalar that starts with a character. -/
def singleQuotedPiece (c : Char) (rest : List Char) : QuotedPiece :=
  if c = '\'' then
    if rest.head? = some '\'' then .char '\'' 1 else .close
  else
    .char c 0

/-- The codes of the characters that stand for others after a backslash. -/
def escapeCodes : List (Char × Nat) :=
  [('0', 0), ('a', 7), ('b', 8), ('t', 9), ('\t', 9), ('n', 10), ('v', 11), ('f', 12), ('r', 13),
    ('e', 27), (' ', 32), ('"', 34), ('/', 47), ('\\', 92), ('N', 0x85), ('_', 0xA0), ('L', 0x2028),
    ('P', 0x2029)]

/-- The piece that a backslash and the code of a character in `count` digits make, after the letter
that says so. -/
def codePiece (count : Nat) (rest : List Char) : QuotedPiece :=
  match Text.numeral? Text.hexValue? 16 (rest.take count) with
  | some code =>
    if count ≤ rest.length ∧ Text.isCodePoint code then .char (Char.ofNat code) (count + 1)
    else .fault
  | none => .fault

/-- The piece that a backslash makes with the text after it. -/
def escapePiece : List Char → QuotedPiece
  | [] => .fault
  | c :: rest =>
    if isBreak c then .join
    else if c = 'x' then codePiece 2 rest
    else if c = 'u' then codePiece 4 rest
    else if c = 'U' then codePiece 8 rest
    else match escapeCodes.lookup c with
      | some code => .char (Char.ofNat code) 1
      | none => .fault

/-- The piece of a double-quoted scalar that starts with a character. -/
def doubleQuotedPiece (c : Char) (rest : List Char) : QuotedPiece :=
  if c = '"' then .close
  else if c = '\\' then escapePiece rest
  else .char c 0

/-- A scalar's text and the number of characters that it takes. -/
structure ScalarReading where
  text : List Char
  length : Nat
  deriving DecidableEq, Repr

/-- The reading with text before it, which is written with one more character. -/
def ScalarReading.after (before : List Char) (reading : ScalarReading) : ScalarReading :=
  ⟨before ++ reading.text, reading.length + 1⟩

/-- The rest of a quoted scalar, up to its closing quote, after a gap.  The first `skip` characters
belong to a piece that is already read. -/
def quotedFrom (piece : Char → List Char → QuotedPiece) (gap : Gap) (atLineStart : Bool) :
    Nat → List Char → Option ScalarReading
  | _, [] => none
  | skip + 1, _ :: rest => (quotedFrom piece gap atLineStart skip rest).map (.after [])
  | 0, c :: rest =>
    if isGap c then
      (quotedFrom piece (gap.add c) (isBreak c) 0 rest).map (.after [])
    else if atLineStart && isDocumentMarker (c :: rest) then
      none
    else match piece c rest with
      | .char d more => (quotedFrom piece .none false more rest).map (.after (gap.text ++ [d]))
      | .join => (quotedFrom piece (.broken none []) true 1 rest).map (.after gap.text)
      | .close => some ⟨gap.text, 1⟩
      | .fault => none

/-- The scalar that starts after a quote. -/
def quotedScalar? (quote : Char) (text : List Char) : Option ScalarReading :=
  quotedFrom (if quote = '"' then doubleQuotedPiece else singleQuotedPiece) .none false 0 text

/-! ## Plain scalars -/

/-- A plain scalar's text, the number of characters that it takes with the gap after it, and whether
that gap breaks the line. -/
structure PlainReading extends ScalarReading where
  breaks : Bool
  deriving DecidableEq, Repr

/-- The reading with text before it, which is written with one more character. -/
def PlainReading.after (before : List Char) (reading : PlainReading) : PlainReading :=
  { reading with toScalarReading := reading.toScalarReading.after before }

/-- The characters that have a meaning of their own within brackets. -/
def flowMarks : List Char :=
  [',', '[', ']', '\x7b', '\x7d']

/-- Whether a character with the text after it ends a plain scalar. -/
def endsPlain (inFlow : Bool) (c : Char) (rest : List Char) : Bool :=
  (c == ':' && atGap rest) || (inFlow && flowMarks.contains c)

/-- Whether a colon within brackets is refused, as it stands directly before a mark. -/
def isStrayColon (inFlow : Bool) (c : Char) (rest : List Char) : Bool :=
  inFlow && c == ':' && (rest.head?.any fun d => d == '?' || flowMarks.contains d)

/-- Whether a plain scalar does not go on after a gap. -/
def endsAfterGap (inFlow : Bool) (indent column : Nat) (text : List Char) : Bool :=
  (!inFlow && decide (column < indent)) || (column == 0 && isDocumentMarker text) ||
    text.head? == some '#'

/-- The rest of a plain scalar after a gap.  Lines that go on with it have at least `indent` spaces
in front unless it stands within brackets. -/
def plainFrom (inFlow : Bool) (indent column : Nat) (gap : Gap) : List Char → Option PlainReading
  | [] => some ⟨⟨[], 0⟩, gap.breaks⟩
  | c :: rest =>
    if isGap c then
      if gap.breaks && c == '\t' && decide (column < indent) then
        none
      else
        (plainFrom inFlow indent (if isBreak c then 0 else column + 1) (gap.add c) rest).map
          (.after [])
    else if gap ≠ .none ∧ endsAfterGap inFlow indent column (c :: rest) then
      some ⟨⟨[], 0⟩, gap.breaks⟩
    else if isStrayColon inFlow c rest then
      none
    else if endsPlain inFlow c rest then
      some ⟨⟨[], 0⟩, gap.breaks⟩
    else
      (plainFrom inFlow indent (column + 1) .none rest).map (.after (gap.text ++ [c]))

/-- The plain scalar that starts a text. -/
def plainScalar? (inFlow : Bool) (indent column : Nat) (text : List Char) : Option PlainReading :=
  plainFrom inFlow indent column .none text

/-! ## Block scalars -/

/-- What becomes of the line ends after the last line of a block scalar. -/
inductive Chomping where
  | strip
  /-- The first is kept. -/
  | clip
  | keep
  deriving DecidableEq, Repr

/-- A line and the character that ends it; the last line of a text may have none. -/
structure Line where
  text : List Char
  ending : Option Char
  deriving DecidableEq, Repr

/-- The number of characters of a line with its end. -/
def Line.length (line : Line) : Nat :=
  line.text.length + line.ending.toList.length

/-- The lines of a text. -/
def linesOf : List Char → List Line
  | [] => []
  | c :: rest =>
    if isBreak c then ⟨[], some c⟩ :: linesOf rest
    else match linesOf rest with
      | [] => [⟨[c], none⟩]
      | line :: lines => { line with text := c :: line.text } :: lines

/-! ### Header -/

/-- The header of a block scalar after its mark. -/
structure BlockHeader where
  chomping : Chomping
  /-- The indentation beyond that of the scalar's context. -/
  extra : Option Nat
  deriving DecidableEq, Repr

/-- The chomping that a character asks for. -/
def chompingOf? (c : Char) : Option Chomping :=
  if c = '-' then some .strip else if c = '+' then some .keep else none

/-- The header that consists of the given characters. -/
def BlockHeader.ofChars? (marks : List Char) : Option BlockHeader :=
  let chomping := marks.filterMap chompingOf?
  let extra := (marks.filterMap Text.digitValue?).filter (0 < ·)
  if chomping.length ≤ 1 ∧ extra.length ≤ 1 ∧ chomping.length + extra.length = marks.length then
    some ⟨chomping.head?.getD .clip, extra.head?⟩
  else
    none

/-- The header that a line holds, which may end in a comment. -/
def BlockHeader.ofLine? (line : List Char) : Option BlockHeader :=
  let marks := line.takeWhile fun c => !isSpace c && c != '#'
  let rest := (line.drop marks.length).dropWhile isSpace
  if rest = [] ∨ rest.head? = some '#' then ofChars? marks else none

/-! ### Content -/

/-- The number of spaces at the start of a line. -/
def Line.indentation (line : Line) : Nat :=
  (line.text.takeWhile (· == ' ')).length

/-- Whether a line has nothing but spaces and ends. -/
def Line.isEmpty (line : Line) : Bool :=
  line.ending.isSome && line.text.all (· == ' ')

/-- Whether a line that is indented by less than `indent` goes on with a tab. -/
def Line.hasStrayTab (line : Line) (indent : Nat) : Bool :=
  decide (line.indentation < indent) && (line.text.drop line.indentation).head? == some '\t'

/-- The indentation of the first line that is not empty or, if that is more, of an empty line before
it. -/
def foundIndent (lines : List Line) : Nat :=
  let leading := lines.takeWhile Line.isEmpty
  let next := (lines.drop leading.length).head?.toList
  ((leading ++ next).map Line.indentation).foldl max 0

/-- Whether a tab stands in the indentation before the first line that is not empty. -/
def hasLeadingTab (lines : List Line) : Bool :=
  let leading := lines.takeWhile Line.isEmpty
  ((lines.drop leading.length).head?.any fun line =>
    (line.text.drop line.indentation).head? == some '\t')

/-- The state between two lines of a block scalar: the end of the last line with text, whether that
line starts with a space, and the ends of the empty lines since. -/
structure BlockGap where
  ending : Option Char
  spaced : Bool
  further : List Char
  deriving DecidableEq, Repr

/-- The text between the last line and one that starts with a space or not. -/
def BlockGap.text (gap : BlockGap) (folded spaced : Bool) : List Char :=
  if folded && gap.ending == some '\n' && !gap.spaced && !spaced then
    if gap.further.isEmpty then [' '] else gap.further
  else
    gap.ending.toList ++ gap.further

/-- The text after the last line. -/
def BlockGap.final (gap : BlockGap) : Chomping → List Char
  | .strip => []
  | .clip => gap.ending.toList
  | .keep => gap.ending.toList ++ gap.further

/-- The rest of a block scalar. -/
def blockFrom (folded : Bool) (chomping : Chomping) (indent : Nat) (gap : BlockGap) :
    List Line → Option ScalarReading
  | [] => some ⟨gap.final chomping, 0⟩
  | line :: lines =>
    let content := line.text.drop indent
    if line.hasStrayTab indent then
      none
    else if line.indentation ≤ indent ∧ line.isEmpty then
      (blockFrom folded chomping indent
        { gap with further := gap.further ++ line.ending.toList } lines).map
        fun reading => { reading with length := line.length + reading.length }
    else if line.indentation < indent ∨ content = [] then
      some ⟨gap.final chomping, 0⟩
    else
      let spaced := content.head?.any isSpace
      (blockFrom folded chomping indent ⟨line.ending, spaced, []⟩ lines).map
        fun reading =>
          ⟨gap.text folded spaced ++ content ++ reading.text, line.length + reading.length⟩

/-- The block scalar after its mark `|` or `>`, in a context that is indented by `context`; there is
none at the top level. -/
def blockScalar? (folded : Bool) (context : Option Nat) (text : List Char) : Option ScalarReading :=
  match linesOf text with
  | [] => some ⟨[], 0⟩
  | first :: lines =>
    match BlockHeader.ofLine? first.text with
    | none => none
    | some header =>
      let indent := match header.extra with
        | some extra => context.getD 0 + extra
        | none => max 1 (max (foundIndent lines) (context.elim 0 (· + 1)))
      if header.extra.isNone ∧ hasLeadingTab lines then
        none
      else
        (blockFrom folded header.chomping indent ⟨none, false, []⟩ lines).map
          fun reading => { reading with length := first.length + reading.length }

end TableLineage.Yaml
