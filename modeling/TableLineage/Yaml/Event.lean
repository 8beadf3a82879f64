import TableLineage.Yaml.Scan

/-!
# The nodes of a document as a sequence of events

Events are the scalars, and the starts and ends of the collections, of the first document of a text
in the order in which they stand.  They are made from the tokens by a machine whose stack says what
is expected next.  A malformed text has the events before the fault.
-/

namespace TableLineage.Yaml

/-- A scalar with its tag. -/
structure Scalar where
  text : String
  isPlain : Bool
  tag : Option String
  deriving DecidableEq, Repr

/-- The kinds of events. -/
inductive EventKind where
  | scalar (scalar : Scalar)
  /-- The node of an earlier event, given by the number of events before that. -/
  | repeated (position : Nat)
  | sequenceStart (tag : Option String)
  | sequenceEnd
  | mappingStart (tag : Option String)
  | mappingEnd
  /-- There is no document. -/
  | void
  deriving DecidableEq, Repr

/-- An event and the mark at which it starts. -/
structure Event where
  kind : EventKind
  mark : Mark
  deriving DecidableEq, Repr

/-- The scalar that stands where there is nothing. -/
def Event.empty (mark : Mark) : Event :=
  ⟨.scalar ⟨"", true, none⟩, mark⟩

/-! ## What is expected next -/

/-- What a machine expects next. -/
inductive Expected where
  /-- A node.  Block collections are allowed if `block` holds; a block sequence that is not indented
  is allowed if `unindented` holds too. -/
  | node (block unindented : Bool)
  | blockEntry
  | unindentedEntry
  | blockKey
  | blockValue
  | flowEntry (first : Bool)
  /-- The key of a pair that stands in a flow sequence. -/
  | pairKey
  | pairValue
  | pairEnd
  | flowKey (first : Bool)
  | flowValue
  /-- The value of a key without a colon. -/
  | noValue
  deriving DecidableEq, Repr

/-- What a machine does at some tokens: the events, the anchor of the first event's node, what is
expected next, and the tokens that are left. -/
structure Move where
  events : List Event
  anchor : Option (List Char)
  next : List Expected
  rest : List Token
  deriving DecidableEq, Repr

namespace Move

/-- A move with an event and what is expected after it. -/
def emit (kind : EventKind) (mark : Mark) (next : List Expected) (rest : List Token) : Move :=
  ⟨[⟨kind, mark⟩], none, next, rest⟩

/-- A move without an event. -/
def expect (next : List Expected) (rest : List Token) : Move :=
  ⟨[], none, next, rest⟩

/-- A move with an empty scalar. -/
def empty (mark : Mark) (next : List Expected) (rest : List Token) : Move :=
  ⟨[.empty mark], none, next, rest⟩

end Move

/-! ## Nodes -/

/-- The meanings of tag handles. -/
abbrev TagMeanings := List (List Char × List Char)

/-- The names that are known at some place of a document. -/
structure Names where
  meanings : TagMeanings
  /-- The anchors of earlier nodes with the numbers of events before these, the last first. -/
  anchors : List (List Char × Nat)
  deriving DecidableEq, Repr

/-- The meanings of the handles that need no directive. -/
def defaultMeanings : TagMeanings :=
  [(['!'], ['!']), (['!', '!'], "tag:yaml.org,2002:".toList)]

/-- The full text of a tag, if its handle has a meaning. -/
def Tag.full? (meanings : TagMeanings) (tag : Tag) : Option String :=
  if tag.handle = [] then some (String.ofList tag.rest)
  else (meanings.lookup tag.handle).map fun start => String.ofList (start ++ tag.rest)

/-- The anchor and the tag before a node. -/
structure Properties where
  anchor : Option (List Char)
  tag : Option Tag
  first : Option Mark
  deriving DecidableEq, Repr

/-- The properties at the start of some tokens, in either order, and the tokens after them. -/
def propertiesOf : List Token → Properties × List Token
  | ⟨.anchorName name, first, _⟩ :: ⟨.tag tag, _, _⟩ :: rest =>
      (⟨some name, some tag, some first⟩, rest)
  | ⟨.anchorName name, first, _⟩ :: rest => (⟨some name, none, some first⟩, rest)
  | ⟨.tag tag, first, _⟩ :: ⟨.anchorName name, _, _⟩ :: rest =>
      (⟨some name, some tag, some first⟩, rest)
  | ⟨.tag tag, first, _⟩ :: rest => (⟨none, some tag, some first⟩, rest)
  | rest => (⟨none, none, none⟩, rest)

/-- The content of a node with a tag, after its properties. -/
def contentMove? (block unindented : Bool) (tag : Option String) (given : Properties) :
    List Token → Option Move
  | [] => none
  | token :: rest =>
    let mark := given.first.getD token.first
    match token.kind with
    | .scalar scalar =>
      let tag := if tag = some "!" then none else tag
      some (.emit (.scalar ⟨scalar.text, scalar.isPlain, tag⟩) mark [] rest)
    | .flowSequenceStart => some (.emit (.sequenceStart tag) mark [.flowEntry true] rest)
    | .flowMappingStart => some (.emit (.mappingStart tag) mark [.flowKey true] rest)
    | kind =>
      if unindented ∧ kind = .blockEntry then
        some (.emit (.sequenceStart tag) mark [.unindentedEntry] (token :: rest))
      else if block ∧ kind = .blockSequenceStart then
        some (.emit (.sequenceStart tag) mark [.blockEntry] rest)
      else if block ∧ kind = .blockMappingStart then
        some (.emit (.mappingStart tag) mark [.blockKey] rest)
      else if given.first.isSome then
        some (.emit (.scalar ⟨"", true, tag⟩) mark [] (token :: rest))
      else
        none

/-- The move at an alias. -/
def aliasMove? (names : Names) (name : List Char) (mark : Mark) (rest : List Token) : Option Move :=
  (names.anchors.lookup name).map fun position => .emit (.repeated position) mark [] rest

/-- The move at a node that is not an alias. -/
def nodeMove? (names : Names) (block unindented : Bool) (tokens : List Token) : Option Move :=
  let (given, rest) := propertiesOf tokens
  match given.tag.map (Tag.full? names.meanings) with
  | some none => none
  | tag =>
    (contentMove? block unindented (tag.bind id) given rest).map fun move =>
      { move with anchor := given.anchor }

/-! ## Collections -/

/-- The move at a node that may be left out before some kinds of tokens.  The mark of a node that is
left out is the given one, or else that of the next token. -/
def nodeUnless (ends : List TokenKind) (block unindented : Bool) (mark : Option Mark)
    (next : List Expected) : List Token → Option Move
  | [] => none
  | token :: rest =>
    if token.kind ∈ ends then some (.empty (mark.getD token.first) next (token :: rest))
    else some (.expect (.node block unindented :: next) (token :: rest))

/-- The move at an entry of a flow collection, which is closed by the token `close`.  A comma stands
before every entry but the first. -/
def flowMove? (close : TokenKind) (closing : EventKind) (first : Bool)
    (entry : Token → List Token → Option Move) : List Token → Option Move
  | [] => none
  | token :: rest =>
    if token.kind = close then some (.emit closing token.first [] rest)
    else if first then entry token rest
    else if token.kind = .flowEntry then
      match rest with
      | [] => none
      | token :: rest =>
        if token.kind = close then some (.emit closing token.first [] rest) else entry token rest
    else none

/-- The move at an entry of a flow sequence. -/
def flowEntryMove (token : Token) (rest : List Token) : Option Move :=
  if token.kind = .key then
    some (.emit (.mappingStart none) token.first [.pairKey, .flowEntry false] rest)
  else
    some (.expect [.node false false, .flowEntry false] (token :: rest))

/-- The move at a key of a flow mapping. -/
def flowKeyMove (token : Token) (rest : List Token) : Option Move :=
  if token.kind = .key then
    nodeUnless [.value, .flowEntry, .flowMappingEnd] false false none [.flowValue] rest
  else
    some (.expect [.node false false, .noValue] (token :: rest))

/-- The move at the value of a pair in a flow collection that is closed by the token `close`. -/
def flowValueMove? (close : TokenKind) (next : List Expected) : List Token → Option Move
  | [] => none
  | token :: rest =>
    if token.kind = .value then nodeUnless [.flowEntry, close] false false none next rest
    else some (.empty token.first next (token :: rest))

/-- The move of a machine at some tokens; there is none if they are not as expected. -/
def move? (names : Names) (expected : Expected) (tokens : List Token) : Option Move :=
  match expected, tokens with
  | _, [] => none
  | .node block unindented, token :: rest =>
    match token.kind with
    | .aliasName name => aliasMove? names name token.first rest
    | _ => nodeMove? names block unindented (token :: rest)
  | .blockEntry, token :: rest =>
    if token.kind = .blockEntry then
      nodeUnless [.blockEntry, .blockEnd] true false (some token.last) [.blockEntry] rest
    else if token.kind = .blockEnd then some (.emit .sequenceEnd token.first [] rest)
    else none
  | .unindentedEntry, token :: rest =>
    if token.kind = .blockEntry then
      nodeUnless [.blockEntry, .key, .value, .blockEnd] true false (some token.last)
        [.unindentedEntry] rest
    else some (.emit .sequenceEnd token.first [] (token :: rest))
  | .blockKey, token :: rest =>
    if token.kind = .key then
      nodeUnless [.key, .value, .blockEnd] true true (some token.last) [.blockValue] rest
    else if token.kind = .blockEnd then some (.emit .mappingEnd token.first [] rest)
    else none
  | .blockValue, token :: rest =>
    if token.kind = .value then
      nodeUnless [.key, .value, .blockEnd] true true (some token.last) [.blockKey] rest
    else some (.empty token.first [.blockKey] (token :: rest))
  | .flowEntry first, tokens =>
    flowMove? .flowSequenceEnd .sequenceEnd first flowEntryMove tokens
  | .pairKey, tokens =>
    nodeUnless [.value, .flowEntry, .flowSequenceEnd] false false none [.pairValue] tokens
  | .pairValue, tokens => flowValueMove? .flowSequenceEnd [.pairEnd] tokens
  | .pairEnd, token :: rest => some (.emit .mappingEnd token.first [] (token :: rest))
  | .flowKey first, tokens => flowMove? .flowMappingEnd .mappingEnd first flowKeyMove tokens
  | .flowValue, tokens => flowValueMove? .flowMappingEnd [.flowKey false] tokens
  | .noValue, token :: rest => some (.empty token.first [.flowKey false] (token :: rest))

/-! ## Documents -/

/-- The events of a machine that expects the given nodes, and the tokens after these unless there is
a fault.  `position` is the number of earlier events; at most `fuel` moves are made. -/
def runFrom : (fuel : Nat) → Names → (position : Nat) → List Expected → List Token →
    List Event × Option (List Token)
  | _, _, _, [], tokens => ([], some tokens)
  | 0, _, _, _ :: _, _ => ([], none)
  | fuel + 1, names, position, expected :: stack, tokens =>
    match move? names expected tokens with
    | none => ([], none)
    | some move =>
      let anchors := (move.anchor.map (·, position)).toList ++ names.anchors
      let (events, rest) := runFrom fuel { names with anchors } (position + move.events.length)
        (move.next ++ stack) move.rest
      (move.events ++ events, rest)

/-- The events of one node and the tokens after it.  No token leads to more than eight moves. -/
def run (meanings : TagMeanings) (tokens : List Token) : List Event × Option (List Token) :=
  runFrom (8 * (tokens.length + 1)) ⟨meanings, []⟩ 0 [.node true false] tokens

/-- The events of a document, up to the fault if it is malformed. -/
structure Document where
  events : List Event
  /-- Whether the text is well formed and holds nothing after the document. -/
  isWhole : Bool
  deriving DecidableEq, Repr

/-- The directives at the start of some tokens, and the tokens after them. -/
def directivesOf : List Token → List Directive × List Token
  | ⟨.directive directive, _, _⟩ :: tokens =>
    let (directives, rest) := directivesOf tokens
    (directive :: directives, rest)
  | tokens => ([], tokens)

/-- The meanings that the directives of a document give to tag handles.  No handle may be given two
meanings, and only one version may be given. -/
def meaningsOf? (directives : List Directive) : Option TagMeanings :=
  let versions := directives.filterMap fun
    | .version major minor => some (major, minor)
    | _ => none
  let meanings := directives.filterMap fun
    | .tag handle meaning => some (handle, meaning)
    | _ => none
  if versions.length ≤ 1 ∧ versions.all ([(1, 1), (1, 2)].contains ·) ∧
      (meanings.map (·.1)).Nodup then
    some (meanings ++ defaultMeanings)
  else
    none

/-- Whether a token stands between documents. -/
def TokenKind.endsDocument : TokenKind → Bool
  | directive _ | documentStart | documentEnd | textEnd => true
  | _ => false

/-- Whether tokens hold nothing but the ends of a document and of the text. -/
def holdsNothing (tokens : List Token) : Bool :=
  match tokens.dropWhile (·.kind == .documentEnd) with
  | ⟨.textEnd, _, _⟩ :: _ => true
  | _ => false

/-- The document that one node makes. -/
def Document.ofNode (meanings : TagMeanings) (tokens : List Token) : Document :=
  let (events, rest) := run meanings tokens
  ⟨events, rest.any holdsNothing⟩

/-- The first document of the tokens of a text. -/
def Document.ofTokens (tokens : List Token) : Document :=
  let (directives, content) := directivesOf tokens
  match content with
  | ⟨.documentStart, _, _⟩ :: rest =>
    match meaningsOf? directives, rest with
    | some meanings, token :: _ =>
      if token.kind.endsDocument then ⟨[.empty token.first], holdsNothing rest⟩
      else .ofNode meanings rest
    | _, _ => ⟨[], false⟩
  | ⟨.textEnd, mark, _⟩ :: _ =>
    if directives.isEmpty then ⟨[⟨.void, mark⟩], true⟩ else ⟨[], false⟩
  | tokens => if directives.isEmpty then .ofNode defaultMeanings tokens else ⟨[], false⟩

/-- The first document of a text. -/
def Document.ofText (text : String) : Document :=
  .ofTokens (tokensOf text)

end TableLineage.Yaml
