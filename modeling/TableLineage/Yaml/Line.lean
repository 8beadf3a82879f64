import TableLineage.Text.Search

/-!
# Characters, lines and gaps of YAML text

YAML text is taken after `normalized`, which makes a line feed of every line end but the two Unicode
separators.  A mark is a place in such text.

Within a quoted or plain scalar, spaces within a line count.  Where the line breaks, the spaces
about the break do not count; a single line feed stands for a space, and of several line ends the
first is left out.
-/

namespace TableLineage.Yaml

/-! ## Kinds of characters -/

/-- Whether a character ends a line. -/
def isBreak (c : Char) : Bool :=
  c == '\n' || c == '\u2028' || c == '\u2029'

/-- Whether a character is a space or a tab. -/
def isSpace (c : Char) : Bool :=
  c == ' ' || c == '\t'

/-- Whether a character is a space or ends a line. -/
def isGap (c : Char) : Bool :=
  isSpace c || isBreak c

/-- Whether a text is at its end or starts with a space or a line end. -/
def atGap : List Char → Bool
  | [] => true
  | c :: _ => isGap c

/-- Whether a character is an ASCII letter, a digit, `_` or `-`. -/
def isNameChar (c : Char) : Bool :=
  c.isAlphanum || c == '_' || c == '-'

/-- Whether a character may stand in YAML text. -/
def isPrintable (c : Char) : Bool :=
  let n := c.toNat
  n == 0x9 || n == 0xA || n == 0xD || n == 0x85 || decide (0x20 ≤ n ∧ n ≤ 0x7E) ||
    decide (0xA0 ≤ n ∧ n ≤ 0xD7FF) || decide (0xE000 ≤ n ∧ n ≤ 0xFFFD) || decide (0x10000 ≤ n)

/-- The text with a line feed in place of every carriage return, with or without a line feed after
it, and of every next-line character. -/
def normalized : List Char → List Char
  | [] => []
  | c :: rest =>
    if c = '\r' then
      match rest with
      | '\n' :: _ => normalized rest
      | _ => '\n' :: normalized rest
    else if c = '\u0085' then '\n' :: normalized rest
    else c :: normalized rest

/-- Whether a line starts a document or ends one. -/
def isDocumentMarker (text : List Char) : Bool :=
  (['-', '-', '-'].isPrefixOf text || ['.', '.', '.'].isPrefixOf text) && atGap (text.drop 3)

/-! ## Marks -/

/-- A place in a text: the characters, the lines, and the characters of the line before it. -/
structure Mark where
  index : Nat
  line : Nat
  column : Nat
  deriving DecidableEq, Repr

namespace Mark

/-- The start of a text. -/
def start : Mark :=
  ⟨0, 0, 0⟩

/-- The mark after a character. -/
def next (mark : Mark) (c : Char) : Mark :=
  if isBreak c then ⟨mark.index + 1, mark.line + 1, 0⟩
  else ⟨mark.index + 1, mark.line, mark.column + 1⟩

/-- The mark after a text. -/
def after (mark : Mark) (text : List Char) : Mark :=
  text.foldl next mark

end Mark

/-! ## Gaps within scalars -/

/-- The spaces and line ends between two pieces of a scalar. -/
inductive Gap where
  /-- Spaces within a line. -/
  | spaces (text : List Char)
  /-- A line end, none if it is escaped, and the further line ends. -/
  | broken (first : Option Char) (further : List Char)
  deriving DecidableEq, Repr

namespace Gap

/-- No gap. -/
def none : Gap :=
  .spaces []

/-- The gap with one more character. -/
def add (gap : Gap) (c : Char) : Gap :=
  match gap with
  | spaces text => if isBreak c then broken (some c) [] else spaces (text ++ [c])
  | broken first further => if isBreak c then broken first (further ++ [c]) else gap

/-- Whether the line breaks within the gap. -/
def breaks : Gap → Bool
  | spaces _ => false
  | broken _ _ => true

/-- The text that a gap stands for. -/
def text : Gap → List Char
  | spaces text => text
  | broken (some '\n') [] => [' ']
  | broken (some '\n') further => further
  | broken first further => first.toList ++ further

end Gap

end TableLineage.Yaml
