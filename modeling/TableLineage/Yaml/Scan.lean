import TableLineage.Yaml.Scalar
import TableLineage.Yaml.Token

/-!
# Cutting YAML text into tokens

Block collections are recognised by their indentation, and a key is recognised only when the colon
after it is met.  So the scan keeps the columns of the open block collections and, for every open
bracket, the place among the tokens at which a key may have started; at the colon the key's tokens
are put in there.  Tokens after the start of such a possible key are not final.
-/

namespace TableLineage.Yaml

/-- A node that may turn out to be a key. -/
structure PendingKey where
  /-- The number of tokens before the node. -/
  place : Nat
  /-- Whether the text is malformed unless the node is a key. -/
  required : Bool
  mark : Mark
  deriving DecidableEq, Repr

/-- Whether a key that starts at a pending key's mark has to have ended before another mark. -/
def PendingKey.isStale (key : PendingKey) (mark : Mark) : Bool :=
  decide (key.mark.line < mark.line) || decide (key.mark.index + 1024 < mark.index)

/-- The state of a scan. -/
structure ScanState where
  mark : Mark
  /-- The tokens so far, the last first. -/
  tokens : List Token
  /-- The pending keys outside of all brackets and within each open bracket, the innermost first. -/
  keys : List (Option PendingKey)
  /-- The columns of the open block collections, the innermost first. -/
  indents : List Nat
  /-- Whether a key may start here. -/
  keyAllowed : Bool
  deriving DecidableEq, Repr

namespace ScanState

/-- The state at the start of a text. -/
def start : ScanState :=
  ⟨.start, [], [none], [], true⟩

/-- Whether a bracket is open. -/
def inFlow (state : ScanState) : Bool :=
  decide (1 < state.keys.length)

/-- The state with a token that consists of the first `length` characters of the text. -/
def read (state : ScanState) (kind : TokenKind) (text : List Char) (length : Nat) : ScanState :=
  let last := state.mark.after (text.take length)
  { state with mark := last, tokens := ⟨kind, state.mark, last⟩ :: state.tokens }

/-! ## Block collections -/

/-- The columns that are open at a column, and the number of those that end before it. -/
def closeColumns (column : Option Nat) : List Nat → List Nat × Nat
  | [] => ([], 0)
  | indent :: indents =>
    if column.all (indent > ·) then
      let (open_, closed) := closeColumns column indents
      (open_, closed + 1)
    else
      (indent :: indents, 0)

/-- The state in which the block collections that are indented by more than a column are closed; all
of them without a column. -/
def closeBlocks (state : ScanState) (column : Option Nat) : ScanState :=
  if state.inFlow then state
  else
    let (indents, closed) := closeColumns column state.indents
    { state with
      indents
      tokens := List.replicate closed ⟨.blockEnd, state.mark, state.mark⟩ ++ state.tokens }

/-- The state with tokens put in after the first `place`, which are given in order. -/
def insertTokens (state : ScanState) (place : Nat) (tokens : List Token) : ScanState :=
  let later := state.tokens.length - place
  { state with
    tokens := state.tokens.take later ++ tokens.reverse ++ state.tokens.drop later }

/-- The state in which a block collection that starts at a mark is open.  Its token is put in after
the first `place`. -/
def openBlock (state : ScanState) (kind : TokenKind) (mark : Mark) (place : Nat) : ScanState :=
  if state.inFlow || state.indents.head?.any (mark.column ≤ ·) then state
  else
    { state.insertTokens place [⟨kind, mark, mark⟩] with indents := mark.column :: state.indents }

/-- The state in which a block collection that starts here is open, if one may start here. -/
def openBlockHere? (state : ScanState) (kind : TokenKind) : Option ScanState :=
  if state.inFlow then some state
  else if state.keyAllowed then some (state.openBlock kind state.mark state.tokens.length)
  else none

/-! ## Pending keys -/

/-- The state without a pending key at the innermost level; there is none if that key is
required. -/
def dropKey? (state : ScanState) : Option ScanState :=
  match state.keys with
  | some key :: keys => if key.required then none else some { state with keys := none :: keys }
  | _ => some state

/-- The state in which a node that starts here may be a key. -/
def noteKey? (state : ScanState) : Option ScanState :=
  if state.keyAllowed then
    let required := !state.inFlow && state.indents.head? == some state.mark.column
    (state.dropKey?).map fun state =>
      { state with keys := some ⟨state.tokens.length, required, state.mark⟩ :: state.keys.tail }
  else
    some state

/-- The state without the keys that have become stale; there is none if one of them is required. -/
def dropStaleKeys? (state : ScanState) : Option ScanState :=
  let isStale (key : Option PendingKey) : Bool := key.any (·.isStale state.mark)
  if state.keys.any fun key => isStale key && key.any (·.required) then none
  else some { state with keys := state.keys.map fun key => if isStale key then none else key }

/-- The number of tokens that are final. -/
def finalCount (state : ScanState) : Nat :=
  (state.keys.filterMap fun key => key.map (·.place)).foldl min state.tokens.length

/-- The final tokens of a text that is malformed after this state. -/
def fault (state : ScanState) : List Token :=
  state.tokens.reverse.take state.finalCount

/-! ## Reading one token -/

/-- A bracket that opens a collection. -/
def openFlow? (state : ScanState) (kind : TokenKind) (text : List Char) : Option ScanState :=
  (state.noteKey?).map fun state =>
    { state.read kind text 1 with keys := none :: state.keys, keyAllowed := true }

/-- A bracket that closes a collection. -/
def closeFlow? (state : ScanState) (kind : TokenKind) (text : List Char) : Option ScanState :=
  (state.dropKey?).map fun state =>
    let keys := if state.inFlow then state.keys.tail else state.keys
    { state.read kind text 1 with keys, keyAllowed := false }

/-- A comma within brackets. -/
def flowEntry? (state : ScanState) (text : List Char) : Option ScanState :=
  (state.dropKey?).map fun state => { state.read .flowEntry text 1 with keyAllowed := true }

/-- A dash before an entry of a block sequence. -/
def blockEntry? (state : ScanState) (text : List Char) : Option ScanState :=
  (state.openBlockHere? .blockSequenceStart).bind fun state =>
    (state.dropKey?).map fun state => { state.read .blockEntry text 1 with keyAllowed := true }

/-- A question mark before a key. -/
def explicitKey? (state : ScanState) (text : List Char) : Option ScanState :=
  (state.openBlockHere? .blockMappingStart).bind fun state =>
    (state.dropKey?).map fun state =>
      { state.read .key text 1 with keyAllowed := !state.inFlow }

/-- The colon after a node that is a key. -/
def valueOf (state : ScanState) (key : PendingKey) (text : List Char) : ScanState :=
  let withKey := state.insertTokens key.place [⟨.key, key.mark, key.mark⟩]
  let opened := withKey.openBlock .blockMappingStart key.mark key.place
  { opened.read .value text 1 with keys := none :: state.keys.tail, keyAllowed := false }

/-- A colon before a value. -/
def value? (state : ScanState) (text : List Char) : Option ScanState :=
  (state.dropStaleKeys?).bind fun state =>
    match state.keys.head? with
    | some (some key) => some (state.valueOf key text)
    | _ =>
      (state.openBlockHere? .blockMappingStart).map fun opened =>
        { opened.read .value text 1 with keyAllowed := !state.inFlow }

/-- A node, or the start of one, of the given kind and length. -/
def node? (state : ScanState) (kind : TokenKind) (text : List Char) (length : Nat) :
    Option ScanState :=
  (state.noteKey?).map fun state => { state.read kind text length with keyAllowed := false }

/-- The scalar of a text, as a token. -/
def scalarKind (text : List Char) (isPlain : Bool) : TokenKind :=
  .scalar ⟨String.ofList text, isPlain⟩

/-- A plain scalar. -/
def plain? (state : ScanState) (text : List Char) : Option (ScanState × Nat) :=
  let indent := state.indents.head?.elim 0 (· + 1)
  match plainScalar? state.inFlow indent state.mark.column text with
  | none => none
  | some reading =>
    (state.node? (scalarKind reading.text true) text reading.length).map fun state =>
      ({ state with keyAllowed := reading.breaks }, reading.length)

/-- A block scalar. -/
def block? (state : ScanState) (folded : Bool) (text : List Char) : Option (ScanState × Nat) :=
  match state.dropKey?, blockScalar? folded state.indents.head? text.tail with
  | some state, some reading =>
    let length := reading.length + 1
    some
      ({ state.read (scalarKind reading.text false) text length with keyAllowed := true }, length)
  | _, _ => none

/-- A quoted scalar. -/
def quoted? (state : ScanState) (quote : Char) (text : List Char) : Option (ScanState × Nat) :=
  (quotedScalar? quote text.tail).bind fun reading =>
    (state.node? (scalarKind reading.text false) text (reading.length + 1)).map
      (·, reading.length + 1)

/-- A token on a line that does not belong to a document's content. -/
def outside? (state : ScanState) (kind : TokenKind) (text : List Char) (length : Nat) :
    Option (ScanState × Nat) :=
  ((state.closeBlocks none).dropKey?).map fun state =>
    ({ state.read kind text length with keyAllowed := false }, length)

/-- The characters that cannot start a plain scalar. -/
def indicators : List Char :=
  ['-', '?', ':', ',', '[', ']', '\x7b', '\x7d', '#', '&', '*', '!', '|', '>', '\'', '"', '%', '@',
    '\x60']

/-- Whether a plain scalar can start with a character. -/
def startsPlain (state : ScanState) (c : Char) (rest : List Char) : Bool :=
  !(isGap c || indicators.contains c) || (c == '-' && !rest.head?.any isSpace) ||
    (!state.inFlow && (c == '?' || c == ':') && !atGap rest)

/-- The state after the token that starts with a character, and the length of the token. -/
def token? (state : ScanState) (c : Char) (rest : List Char) : Option (ScanState × Nat) :=
  let text := c :: rest
  let single (next : Option ScanState) : Option (ScanState × Nat) := next.map (·, 1)
  if state.mark.column = 0 ∧ c = '%' then
    let line := rest.takeWhile fun c => !isBreak c
    (directive? line).bind fun directive =>
      state.outside? (.directive directive) text (line.length + 2)
  else if state.mark.column = 0 ∧ isDocumentMarker text then
    state.outside? (if c = '-' then .documentStart else .documentEnd) text 3
  else if c = '[' then single (state.openFlow? .flowSequenceStart text)
  else if c = '\x7b' then single (state.openFlow? .flowMappingStart text)
  else if c = ']' then single (state.closeFlow? .flowSequenceEnd text)
  else if c = '\x7d' then single (state.closeFlow? .flowMappingEnd text)
  else if c = ',' then single (state.flowEntry? text)
  else if c = '-' ∧ atGap rest then single (state.blockEntry? text)
  else if c = '?' ∧ (state.inFlow ∨ atGap rest) then single (state.explicitKey? text)
  else if c = ':' ∧ (state.inFlow ∨ atGap rest) then single (state.value? text)
  else if c = '*' then
    (anchorName? rest).bind fun name =>
      (state.node? (.aliasName name) text (name.length + 1)).map (·, name.length + 1)
  else if c = '&' then
    (anchorName? rest).bind fun name =>
      (state.node? (.anchorName name) text (name.length + 1)).map (·, name.length + 1)
  else if c = '!' then
    (Yaml.tag? state.inFlow rest).bind fun (tag, length) =>
      (state.node? (.tag tag) text (length + 1)).map (·, length + 1)
  else if c = '|' ∧ !state.inFlow then state.block? false text
  else if c = '>' ∧ !state.inFlow then state.block? true text
  else if c = '\'' ∨ c = '"' then state.quoted? c text
  else if state.startsPlain c rest then state.plain? text
  else none

/-- The state after the token that starts with a character, the blocks that end before it, and the
length of the token. -/
def step? (state : ScanState) (c : Char) (rest : List Char) : Option (ScanState × Nat) :=
  match (state.closeBlocks (some state.mark.column)).token? c rest with
  | none => none
  | some (next, length) => (next.dropStaleKeys?).map (·, length)

/-! ## Scanning a text -/

/-- The tokens of a text that ends in this state. -/
def finish (state : ScanState) : List Token :=
  let mark :=
    if state.mark.column = 0 then state.mark
    else { state.mark with line := state.mark.line + 1, column := 0 }
  match ({ state with mark }.closeBlocks none).dropKey? with
  | none => state.fault
  | some ended => (⟨.textEnd, mark, mark⟩ :: ended.tokens).reverse

/-- Whether a character between tokens does not count.  Tabs do not indent. -/
def isIgnored (state : ScanState) (c : Char) : Bool :=
  c == ' ' || (c == '\t' && (state.inFlow || !state.keyAllowed)) ||
    (c == '\uFEFF' && state.mark.column == 0)

/-- The tokens of a text from a state on, after the first `skip` characters, which belong to a token
that is already read. -/
def scanFrom (state : ScanState) : Nat → List Char → List Token
  | _, [] => state.finish
  | skip + 1, _ :: rest => scanFrom state skip rest
  | 0, c :: rest =>
    if state.isIgnored c then
      scanFrom { state with mark := state.mark.next c } 0 rest
    else if c = '#' then
      let comment := rest.takeWhile fun c => !isBreak c
      scanFrom { state with mark := state.mark.after (c :: comment) } comment.length rest
    else if isBreak c then
      scanFrom { state with
        mark := state.mark.next c, keyAllowed := state.keyAllowed || !state.inFlow } 0 rest
    else match state.step? c rest with
      | none => state.fault
      | some (next, length) => scanFrom next (length - 1) rest

end ScanState

/-- The tokens of a text; if it is malformed, those that precede the fault. -/
def tokensOf (text : String) : List Token :=
  if text.toList.all isPrintable then ScanState.start.scanFrom 0 (normalized text.toList) else []

end TableLineage.Yaml
