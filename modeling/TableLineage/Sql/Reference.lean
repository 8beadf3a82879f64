import TableLineage.Sql.Token
import TableLineage.Table.Name

/-!
# Table references

The scan for tables knows keywords and parentheses, not the grammar of SQL.  Every `FROM` and `JOIN`
in a query is followed by a table factor, and the first name in the factor is a reference.  While a
`FROM` clause is open, a comma at its own level starts a further factor; the clause ends at `WHERE`,
`GROUP`, a set operator or a similar keyword.

A query is the whole statement or a group that starts like a query or stands directly after `FROM`,
`JOIN` or `LATERAL`.  All other groups hold arguments of functions or lists of expressions, which is
why `EXTRACT(YEAR FROM d)` refers to no table.  A name before an opening parenthesis is a table
function and no reference.
-/

namespace TableLineage.Sql

/-- One part of a dotted name, without its quotes. -/
structure NamePart where
  value : String
  quoted : Bool
  deriving DecidableEq, Repr

/-- A table's name as it is written in a statement. -/
structure TableReference where
  parts : List NamePart
  deriving DecidableEq, Repr

namespace TableReference

/-- The name by which tables are matched. -/
def canonical (reference : TableReference) : String :=
  Table.canonicalName (reference.parts.map (·.value))

/-- The parts as written, joined by dots. -/
def display (reference : TableReference) : String :=
  ".".intercalate (reference.parts.map (·.value))

/-- Whether the name has more than one part. -/
def isQualified (reference : TableReference) : Bool :=
  decide (1 < reference.parts.length)

end TableReference

/-! ## Names -/

/-- What a token contributes to a name between brackets. -/
def bracketWord? : Token → Option String
  | .word value _ => some value
  | .number text => some text
  | _ => none

/-- The name part at the start of the tokens, if there is one, and the tokens after it.  Where
brackets are tokens of their own, the words and numbers between them are one quoted name; brackets
without any are passed but name nothing. -/
def namePart : List Token → Option NamePart × List Token
  | .word value quote :: rest => (some ⟨value, quote.isSome⟩, rest)
  | .openBracket :: rest =>
    let inside := rest.takeWhile (· != .closeBracket)
    let words := inside.filterMap bracketWord?
    (if words.isEmpty then none else some ⟨" ".intercalate words, true⟩,
      rest.drop (inside.length + 1))
  | tokens => (none, tokens)

theorem length_namePart_le (tokens : List Token) :
    (namePart tokens).2.length ≤ tokens.length := by
  unfold namePart
  split
  · simp
  · simp only [List.length_drop, List.length_cons]
    omega
  · simp

/-- The tokens after the periods at their start. -/
def afterPeriods (tokens : List Token) : List Token :=
  tokens.dropWhile (· == .period)

theorem length_afterPeriods_le (tokens : List Token) :
    (afterPeriods tokens).length ≤ tokens.length :=
  (List.dropWhile_sublist _).length_le

/-- The name parts that follow a name part, each after one or more periods, and the tokens after
them. -/
def furtherParts (tokens : List Token) : List NamePart × List Token :=
  match tokens with
  | .period :: after =>
    let next := namePart (afterPeriods after)
    match next.1 with
    | some part =>
      let (parts, rest) := furtherParts next.2
      (part :: parts, rest)
    | none => ([], next.2)
  | tokens => ([], tokens)
termination_by tokens.length
decreasing_by
  have h₁ := length_namePart_le (afterPeriods after)
  have h₂ := length_afterPeriods_le after
  simp only [List.length_cons]
  omega

/-- The dotted name at the start of the tokens and the tokens after it. -/
def objectName? (tokens : List Token) : Option (TableReference × List Token) :=
  let (first, rest) := namePart tokens
  first.map fun part =>
    let (parts, rest) := furtherParts rest
    (⟨part :: parts⟩, rest)

/-! ## Table factors -/

/-- Whether a token can start a table's name. -/
def startsName : Token → Bool
  | .openBracket => true
  | .word _ (some _) => true
  | .word value none =>
    match Keyword.ofWord? value with
    | some .SELECT | some .WITH | some .VALUES | some .LATERAL | some .UNNEST => false
    | _ => true
  | _ => false

/-- What stands first in a table factor. -/
inductive Factor where
  | table (reference : TableReference)
  /-- The call of a function that returns a table. -/
  | function (name : TableReference)
  /-- A subquery, or nothing that can be read. -/
  | unnamed
  deriving DecidableEq, Repr

/-- The table that a factor refers to. -/
def Factor.reference? : Factor → Option TableReference
  | table reference => some reference
  | _ => none

/-- The factor at the start of the tokens, if no parenthesis opens it. -/
def namedFactor (tokens : List Token) : Factor :=
  if (tokens.head?.map startsName).getD false then
    match objectName? tokens with
    | some (name, .openParen :: _) => .function name
    | some (name, _) => .table name
    | none => .unnamed
  else
    .unnamed

/-- The factor inside the parentheses that open the tokens. -/
def innerFactor : List Token → Factor
  | .openParen :: rest => innerFactor rest
  | tokens => namedFactor tokens

/-- The factor at the start of the tokens.  A group is entered only where its first token shows that
it joins tables. -/
def tableFactor (tokens : List Token) : Factor :=
  match tokens with
  | token :: rest => innerFactor (if token.isKeyword .LATERAL then rest else token :: rest)
  | [] => .unnamed

/-! ## The walk through a statement -/

/-- A parenthesis level, or the statement's top level. -/
structure Frame where
  /-- `FROM` and `JOIN` at this level introduce tables. -/
  query : Bool
  /-- A `FROM` clause is open at this level. -/
  inFrom : Bool
  deriving DecidableEq, Repr

/-- The levels that are open at a token, innermost first. -/
structure Frames where
  current : Frame
  outer : List Frame
  deriving DecidableEq, Repr

namespace Frames

/-- The top level of a statement. -/
def top : Frames :=
  ⟨⟨true, false⟩, []⟩

/-- One more level. -/
def push (frames : Frames) (query : Bool) : Frames :=
  ⟨⟨query, false⟩, frames.current :: frames.outer⟩

/-- One level less; the top level stays. -/
def pop (frames : Frames) : Frames :=
  match frames.outer with
  | [] => frames
  | frame :: rest => ⟨frame, rest⟩

/-- The same levels with a `FROM` clause open or closed at the innermost. -/
def setInFrom (frames : Frames) (inFrom : Bool) : Frames :=
  { frames with current := { frames.current with inFrom } }

end Frames

/-- Whether a keyword ends a `FROM` clause. -/
def Keyword.endsFrom : Keyword → Bool
  | WHERE | GROUP | HAVING | ORDER | LIMIT | OFFSET | FETCH | QUALIFY | WINDOW | UNION | EXCEPT
  | INTERSECT | SELECT | SET | UPDATE | RETURNING => true
  | _ => false

/-- Whether a parenthesis between two tokens opens a query. -/
def opensQuery (before after : Option Token) : Bool :=
  before.any (fun token =>
    token.isKeyword .FROM || token.isKeyword .JOIN || token.isKeyword .LATERAL) ||
  after.any (fun token =>
    token == .openParen || token.isKeyword .SELECT || token.isKeyword .WITH ||
      token.isKeyword .VALUES)

/-- Something that the walk comes across. -/
inductive Finding where
  /-- What follows `FROM`, `JOIN` or a comma of a `FROM` clause. -/
  | factor (factor : Factor)
  /-- `FROM` or `JOIN`, as written, outside a query. -/
  | outsideQuery (word : String)
  deriving DecidableEq, Repr

/-- The reference that was found. -/
def Finding.reference? : Finding → Option TableReference
  | factor f => f.reference?
  | outsideQuery _ => none

/-- One step of the walk: the levels after a token and what the token yields, between the token
`before` and the tokens of `rest`. -/
def walkToken (frames : Frames) (before : Option Token) (token : Token) (rest : List Token) :
    Frames × Option Finding :=
  match token with
  | .openParen => (frames.push (opensQuery before rest.head?), none)
  | .closeParen => (frames.pop, none)
  | .comma =>
    (frames,
      if frames.current.query && frames.current.inFrom then some (.factor (tableFactor rest))
      else none)
  | .word value none =>
    match Keyword.ofWord? value with
    | some keyword =>
      if keyword.endsFrom then
        (frames.setInFrom false, none)
      else if keyword = .FROM ∨ keyword = .JOIN then
        if !frames.current.query then
          (frames, some (.outsideQuery value))
        else if keyword = .FROM ∧ before.any (·.isKeyword .DISTINCT) then
          (frames, none)
        else
          (frames.setInFrom true, some (.factor (tableFactor rest)))
      else
        (frames, none)
    | none => (frames, none)
  | _ => (frames, none)

/-- What the walk finds in the tokens after `before`, in order. -/
def findingsFrom (frames : Frames) (before : Option Token) : List Token → List Finding
  | [] => []
  | token :: rest =>
    let (next, found) := walkToken frames before token rest
    found.toList ++ findingsFrom next (some token) rest

/-- What the walk through a statement finds, in order. -/
def findings (statement : List Token) : List Finding :=
  findingsFrom .top none statement

/-- The table references of a statement, in order and with repetitions. -/
def extractReferences (statement : List Token) : List TableReference :=
  (findings statement).filterMap Finding.reference?

end TableLineage.Sql
