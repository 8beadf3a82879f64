import TableLineage.Text.Digits
import TableLineage.Yaml.Line

/-!
# Tokens of YAML text

An anchor names a node, an alias stands for a named node, and a tag says what kind a node is of.  A
directive stands before a document: it gives the version of the format or the meaning of a tag
handle.  The functions here read the text after the character that introduces one.

Tokens say where collections start and end, where keys and values stand, and hold the scalars.  The
tokens of a text end with a token for its end unless the text is malformed.
-/

namespace TableLineage.Yaml

/-! ## Anchors and aliases -/

/-- The characters other than gaps that may follow the name of an anchor. -/
def afterAnchor : List Char :=
  ['?', ':', ',', ']', '\x7d', '%', '@', '\x60']

/-- The name of an anchor or alias. -/
def anchorName? (text : List Char) : Option (List Char) :=
  let name := text.takeWhile isNameChar
  let rest := text.drop name.length
  if name ≠ [] ∧ (atGap rest ∨ rest.head?.any afterAnchor.contains) then some name else none

/-! ## Tags -/

/-- A tag: a handle, which can be empty, and the text after it. -/
structure Tag where
  handle : List Char
  rest : List Char
  deriving DecidableEq, Repr

/-- The characters other than letters and digits that may stand in a tag. -/
def tagChars : List Char :=
  [';', '/', '?', ':', '@', '&', '=', '+', '$', '.', '%', '!', '~', '*', '\'', '(', ')']

/-- The further characters that may stand in a tag that is written in full. -/
def fullTagChars : List Char :=
  [',', '[', ']']

/-- The longest start of a text that consists of characters of tags. -/
def tagText (full : Bool) (text : List Char) : List Char :=
  text.takeWhile fun c => isNameChar c || tagChars.contains c || (full && fullTagChars.contains c)

/-- Whether every percent sign is followed by two hexadecimal digits. -/
def escapesAreComplete : List Char → Bool
  | [] => true
  | c :: rest =>
    (c != '%' || (rest.take 2).all (fun d => (Text.hexValue? d).isSome) &&
      (rest.take 2).length == 2) &&
      escapesAreComplete rest

/-- The tag after its exclamation mark, and the number of characters that it takes. -/
def tagBody? (text : List Char) : Option (Tag × Nat) :=
  match text with
  | '<' :: body =>
    let uri := tagText true body
    if uri ≠ [] ∧ (body.drop uri.length).head? = some '>' then some (⟨[], uri⟩, uri.length + 2)
    else none
  | _ =>
    let name := text.takeWhile isNameChar
    if (text.drop name.length).head? = some '!' then
      let rest := tagText false (text.drop (name.length + 1))
      if rest = [] then none
      else some (⟨'!' :: name ++ ['!'], rest⟩, name.length + 1 + rest.length)
    else
      let rest := tagText false text
      if rest = [] then some (⟨[], ['!']⟩, 0) else some (⟨['!'], rest⟩, rest.length)

/-- The tag after its exclamation mark, if it ends at a gap, or within brackets at a comma. -/
def tag? (inFlow : Bool) (text : List Char) : Option (Tag × Nat) :=
  (tagBody? text).filter fun (tag, length) =>
    let rest := text.drop length
    escapesAreComplete tag.rest && (atGap rest || (inFlow && rest.head? == some ','))

/-! ## Directives -/

/-- A directive. -/
inductive Directive where
  | version (major minor : Nat)
  /-- The text that a tag handle stands for. -/
  | tag (handle : List Char) (meaning : List Char)
  deriving DecidableEq, Repr

/-- Whether a text is a tag handle. -/
def isTagHandle (text : List Char) : Bool :=
  match text with
  | '!' :: rest =>
    rest.isEmpty || (rest.getLast? == some '!' && rest.dropLast.all isNameChar)
  | _ => false

/-- The words of a line up to a comment. -/
def wordsOf (line : List Char) : List (List Char) :=
  ((Text.splitOnP isSpace line).filter (· != [])).takeWhile fun word => word.head? != some '#'

/-- The version that a word gives. -/
def version? (word : List Char) : Option Directive :=
  let major := word.takeWhile Char.isDigit
  let minor := word.drop (major.length + 1)
  if (word.drop major.length).head? = some '.' ∧ major.length ≤ 9 ∧ minor.length ≤ 9 then
    match Text.numeral? Text.digitValue? 10 major, Text.numeral? Text.digitValue? 10 minor with
    | some major, some minor => some (.version major minor)
    | _, _ => none
  else
    none

/-- The directive after its percent sign; `line` goes up to the end of the line. -/
def directive? (line : List Char) : Option Directive :=
  match wordsOf line with
  | [kind, word] => if kind = ['Y', 'A', 'M', 'L'] then version? word else none
  | [kind, handle, meaning] =>
    if kind = ['T', 'A', 'G'] ∧ isTagHandle handle ∧ tagText true meaning = meaning then
      some (.tag handle meaning)
    else
      none
  | _ => none

/-! ## Tokens -/

/-- A scalar as it stands in the text. -/
structure ScalarText where
  text : String
  /-- Whether it is written without quotes and not as a block. -/
  isPlain : Bool
  deriving DecidableEq, Repr

/-- The kinds of tokens. -/
inductive TokenKind where
  | directive (directive : Directive)
  | documentStart
  | documentEnd
  | blockSequenceStart
  | blockMappingStart
  | blockEnd
  | flowSequenceStart
  | flowSequenceEnd
  | flowMappingStart
  | flowMappingEnd
  | blockEntry
  | flowEntry
  | key
  | value
  | aliasName (name : List Char)
  | anchorName (name : List Char)
  | tag (tag : Tag)
  | scalar (scalar : ScalarText)
  | textEnd
  deriving DecidableEq, Repr

/-- A token with the mark at which it starts and the mark after it. -/
structure Token where
  kind : TokenKind
  first : Mark
  last : Mark
  deriving DecidableEq, Repr

end TableLineage.Yaml
