import TableLineage.Sql.Literal
import TableLineage.Sql.Token
import TableLineage.Text.Classes

/-!
# Lexemes

A lexeme is a token, a blank or a comment as it stands in SQL text.  `lexemeAt` reads the one that
starts with a given character and says how many further characters it takes.
-/

namespace TableLineage.Sql

/-- A lexeme of SQL text. -/
inductive Lexeme where
  | token (token : Token)
  /-- A blank or a comment to the end of the line. -/
  | gap
  /-- A block comment, without its delimiters. -/
  | blockComment (text : List Char)
  deriving DecidableEq, Repr

/-- Whether a lexeme is a word, quoted or not. -/
def Lexeme.isWord : Lexeme → Bool
  | token t => t.isWord
  | _ => false

/-- A lexeme and the number of characters that it takes after its first. -/
abbrev Reading := Except LexFault (Lexeme × Nat)

namespace Reading

/-- A lexeme that is a token of no particular kind. -/
def other (more : Nat) : Reading :=
  .ok (.token .other, more)

/-- A string with a closing quote, whose opening quote is the character number `opening` of the
lexeme and is followed by `body`. -/
def quotedString (opening : Nat) (quote : Char) (escapes : Bool) (body : List Char) : Reading :=
  match closingQuote? quote (if escapes then some '\\' else none) body with
  | some position => other (opening + position + 1)
  | none => .error ⟨.unterminatedString, opening⟩

/-- A string that starts with up to three quotes after one letter: one quote closes the string that
one opens, two are the empty string, and three are closed by the next three. -/
def rawString (quote : Char) (rest : List Char) : Reading :=
  if [quote, quote, quote].isPrefixOf rest then
    match afterDelimiter? [quote, quote, quote] (rest.drop 3) with
    | some position => other (3 + position)
    | none => .error ⟨.unterminatedString, 1⟩
  else if [quote, quote].isPrefixOf rest then
    other 2
  else
    quotedString 1 quote false (rest.drop 1)

/-- A `q'...'` string with the given letters, whose first quote precedes the text. -/
def delimitedString (letters : List Char) (text : List Char) : Reading :=
  match delimitedStringEnd letters text with
  | .ok count => other (letters.length + count)
  | .error fault => .error fault

/-- A string with backslash escapes after one letter and its quote. -/
def escapedString (body : List Char) : Reading :=
  match escapedStringEnd? 0 body with
  | some count => other (1 + count)
  | none => .error ⟨.unterminatedEscapedString, 0⟩

/-- A string with Unicode escapes after `U&'`. -/
def unicodeString (body : List Char) : Reading :=
  match unicodeStringEnd 3 0 body with
  | .ok count => other (count - 1)
  | .error fault => .error fault

end Reading

/-! ## Strings introduced by letters -/

/-- The string literal that a letter introduces, if it does. -/
def letteredString? (dialect : Dialect) (c : Char) (rest : List Char) : Option Reading :=
  let letter := c.toLower
  match rest with
  | '\'' :: body =>
    if letter = 'n' then
      some (.quotedString 1 '\'' dialect.quoteRules.backslashEscapes body)
    else if letter = 'x' then
      some (.quotedString 1 '\'' true body)
    else if dialect ≠ .generic then
      none
    else if letter = 'b' then
      some (.quotedString 1 '\'' false body)
    else if letter = 'r' then
      some (.rawString '\'' rest)
    else if letter = 'q' then
      some (.delimitedString [c] body)
    else if letter = 'e' then
      some (.escapedString body)
    else
      none
  | '"' :: body =>
    if dialect ≠ .generic then none
    else if letter = 'b' then some (.quotedString 1 '"' false body)
    else if letter = 'r' then some (.rawString '"' rest)
    else none
  | second :: '\'' :: body =>
    if dialect ≠ .generic then none
    else if letter = 'n' ∧ second.toLower = 'q' then some (.delimitedString [c, second] body)
    else if letter = 'u' ∧ second = '&' then some (.unicodeString body)
    else none
  | _ => none

/-! ## Words, numbers and operators -/

/-- The mark that opens a quoted name in a dialect. -/
def Dialect.quoteMark? (dialect : Dialect) (c : Char) : Option QuoteMark :=
  if c = '"' then some .double
  else if c = '\x60' ∧ dialect.quoteRules.backtickNames then some .backtick
  else if c = '[' ∧ dialect.quoteRules.bracketNames then some .bracket
  else none

/-- The word that starts with the characters `lead` and goes on as far as it can. -/
def wordFrom (dialect : Dialect) (lead : List Char) (rest : List Char) : Reading :=
  let more := rest.takeWhile dialect.continuesWord
  .ok (.token (.word (String.ofList (lead ++ more)) none), lead.length - 1 + more.length)

/-- The quoted name whose opening mark precedes the text. -/
def quotedName (mark : QuoteMark) (text : List Char) : Reading :=
  match closingQuote? mark.closing none text with
  | some position =>
    let value := undoubled mark.closing (text.take position)
    .ok (.token (.word (String.ofList value) (some mark)), position + 1)
  | none => .error ⟨.unterminatedName mark.closing, 0⟩

/-- The characters of an exponent at the start of the text; without a digit there is none. -/
def exponentOf (text : List Char) : List Char :=
  match text with
  | c :: rest =>
    if c = 'e' ∨ c = 'E' then
      let sign := rest.take 1 |>.filter fun s => s == '+' || s == '-'
      let digits := (rest.drop sign.length).takeWhile Char.isDigit
      if digits.isEmpty then [] else c :: sign ++ digits
    else
      []
  | [] => []

/-- The number, or the single period, at the start of the text.  An `L` after a number belongs to
the lexeme but not to the number; `0x` starts digits in base 16. -/
def numberAt (text : List Char) : Reading :=
  let whole := text.takeWhile Char.isDigit
  let rest := text.drop whole.length
  if whole = ['0'] ∧ rest.head? = some 'x' then
    .other (1 + (rest.tail.takeWhile fun c => (Text.hexValue? c).isSome).length)
  else
    let point := rest.take 1 |>.filter (· == '.')
    let fraction := (rest.drop point.length).takeWhile Char.isDigit
    let mantissa := whole ++ point ++ fraction
    if mantissa = ['.'] then
      .ok (.token .period, 0)
    else
      let written := mantissa ++ exponentOf (text.drop mantissa.length)
      let long := if text[written.length]? = some 'L' then 1 else 0
      .ok (.token (.number (String.ofList written)), written.length + long - 1)

/-- The punctuation that is a token of its own. -/
def punctuation? (c : Char) : Option Token :=
  match c with
  | '(' => some .openParen
  | ')' => some .closeParen
  | ',' => some .comma
  | ';' => some .semicolon
  | '[' => some .openBracket
  | ']' => some .closeBracket
  | _ => none

/-- The operators of more than one character, longer ones before their beginnings. -/
def operators (dialect : Dialect) : List String :=
  ["!~~*", "->>", "!~*", "!~~", "<=>", "~~*", "||/", "#>>", "->", "=>", "==", "!=", "!!", "!~",
    "<=", "<>", "<<", "<@", ">=", ">>", "::", ":=", "&&", "^@", "~*", "~~", "||", "|/", "#-", "#>",
    "@>", "@?", "@@"] ++ (if dialect = .generic then ["|>"] else []) ++
    (if dialect = .generic ∨ dialect = .duckdb then ["//"] else [])

/-- The length of the operator of more than one character at the start of the text. -/
def operatorLength? (dialect : Dialect) (text : List Char) : Option Nat :=
  ((operators dialect).find? fun operator => operator.toList.isPrefixOf text).map (·.length)

/-- The word that a sign `@` or `#` starts in dialects whose words can hold such signs.  The sign
takes the next character into the word whatever it is, except where that character keeps the sign
an operator. -/
def signedWord? (dialect : Dialect) (c : Char) (rest : List Char) : Option Reading :=
  if !dialect.hasSignedWords then none
  else match c, rest with
    | '#', next :: rest =>
      if next = '-' ∨ next = '>' ∨ next = ' ' then none else some (wordFrom dialect [c, next] rest)
    | '@', '@' :: next :: rest =>
      if next = ' ' then none else some (wordFrom dialect [c, '@', next] rest)
    | '@', next :: rest =>
      if next = '@' ∨ next = '>' ∨ next = '?' ∨ next = ' ' ∨ next = '\'' ∨ next = '"' ∨
        next = '\x60'
      then none
      else some (wordFrom dialect [c, next] rest)
    | _, _ => none

/-! ## Comments and dollar strings -/

/-- The number of characters up to the end of the line, the line feed included. -/
def lineLength (text : List Char) : Nat :=
  let line := text.takeWhile (· != '\n')
  if line.length < text.length then line.length + 1 else line.length

/-- Whether a comment to the end of the line starts with `c`. -/
def startsLineComment (dialect : Dialect) (c : Char) (rest : List Char) : Bool :=
  (c == '-' && rest.head? == some '-') ||
    (dialect == .snowflake && (c == '#' || (c == '/' && rest.head? == some '/')))

/-- The block comment whose `/*` precedes the text. -/
def blockComment (dialect : Dialect) (text : List Char) : Reading :=
  match blockEnd? dialect.quoteRules.nestedComments 0 text with
  | some position => .ok (.blockComment (text.take (position - 2)), position + 1)
  | none => .error ⟨.unterminatedComment, text.length + 2⟩

/-- The dollar string or placeholder whose first `$` precedes the text. -/
def dollarAt (text : List Char) : Reading :=
  if text.head? = some '$' then
    match afterDelimiter? ['$', '$'] text.tail with
    | some position => .other (1 + position)
    | none => .error ⟨.unterminatedDollarString, text.length + 1⟩
  else
    let tag := text.takeWhile fun c => Text.isLetterOrNumeral c || c == '_'
    if text[tag.length]? = some '$' then
      match afterDelimiter? ('$' :: tag ++ ['$']) (text.drop (tag.length + 1)) with
      | some position => .other (tag.length + 1 + position)
      | none => .error ⟨.unterminatedTaggedString, text.length + 1⟩
    else
      .other tag.length

/-! ## The lexeme at a character -/

/-- The lexeme that starts with `c` and goes on with `rest`; `afterWord` tells whether the lexeme
before it is a word. -/
def lexemeAt (dialect : Dialect) (afterWord : Bool) (c : Char) (rest : List Char) : Reading :=
  if c = ' ' ∨ c = '\t' ∨ c = '\n' then
    .ok (.gap, 0)
  else if c = '\r' then
    .ok (.gap, if rest.head? = some '\n' then 1 else 0)
  else if let some reading := letteredString? dialect c rest then
    reading
  else if c = '\'' then
    .quotedString 0 c dialect.quoteRules.backslashEscapes rest
  else if let some mark := dialect.quoteMark? c then
    quotedName mark rest
  else if c = '.' ∧ rest.head? = some '_' then
    if afterWord then .ok (.token .period, 0) else .error ⟨.strayUnderscore, 0⟩
  else if c = '.' ∨ c.isDigit then
    numberAt (c :: rest)
  else if let some token := punctuation? c then
    .ok (.token token, 0)
  else if startsLineComment dialect c rest then
    .ok (.gap, lineLength rest)
  else if c = '/' ∧ rest.head? = some '*' then
    blockComment dialect rest.tail
  else if let some reading := signedWord? dialect c rest then
    reading
  else if let some length := operatorLength? dialect (c :: rest) then
    .other (length - 1)
  else if dialect.startsWord c then
    wordFrom dialect [c] rest
  else if c = '?' then
    .other (rest.takeWhile Text.isNumeral).length
  else if c = '$' then
    dollarAt rest
  else if Text.isBlank c then
    .ok (.gap, 0)
  else
    .other 0

end TableLineage.Sql
