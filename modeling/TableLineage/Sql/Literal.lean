import TableLineage.Sql.Dialect
import TableLineage.Sql.Quoted
import TableLineage.Text.Digits

/-!
# String literals

Where a string literal ends depends on the letter in front of its quote: `e'...'` has backslash
escapes, `U&'...'` Unicode escapes, `r'...'` none, `q'[...]'` a delimiter of its own.  The functions
here count the characters of the text after the letter up to the end of the literal.  A fault says
what is wrong and how many characters precede the place at which it is noticed.
-/

namespace TableLineage.Sql

open Text (hexText hexValue? octalValue? digitsOf numberOf isCodePoint)

/-- What is wrong with SQL text that cannot be cut into tokens. -/
inductive LexCause where
  | unterminatedString
  | unterminatedEscapedString
  | unterminatedUnicodeString
  /-- No delimiter follows the quote after the letters of a `q'...'` string. -/
  | missingDelimiter (letters : String)
  | unterminatedName (closing : Char)
  | strayUnderscore
  | unterminatedComment
  | unterminatedDollarString
  | unterminatedTaggedString
  | badHexDigit (c : Char)
  | cutOffHexDigits
  | badCodePoint (code : Nat)
  deriving DecidableEq, Repr

/-- The text of a cause. -/
def LexCause.message : LexCause → String
  | unterminatedString => "Unterminated string literal"
  | unterminatedEscapedString => "Unterminated encoded string literal"
  | unterminatedUnicodeString => "Unterminated unicode encoded string literal"
  | missingDelimiter letters => s!"Invalid space, tab, newline, or EOF after '{letters}''"
  | unterminatedName closing => s!"Expected close delimiter '{closing}' before EOF."
  | strayUnderscore => "Unexpected character '_'"
  | unterminatedComment => "Unexpected EOF while in a multi-line comment"
  | unterminatedDollarString => "Unterminated dollar-quoted string"
  | unterminatedTaggedString => "Unterminated dollar-quoted, expected $"
  | badHexDigit c => s!"Invalid hex digit in escaped unicode string: {c}"
  | cutOffHexDigits => "Unexpected EOF while parsing hex digit in escaped unicode string."
  | badCodePoint code => s!"Invalid unicode character: {hexText code}"

/-- A fault in SQL text, noticed after `offset` characters. -/
structure LexFault where
  cause : LexCause
  offset : Nat
  deriving DecidableEq, Repr

/-! ## Strings with backslash escapes -/

/-- Whether a character given by a one-byte code is allowed: the code's low eight bits have to be
an ASCII character other than NUL. -/
def isPlainByte (code : Nat) : Bool :=
  decide (0 < code % 256 ∧ code % 256 ≤ 127)

/-- The number of characters after a backslash that belong to its escape, if the escape is valid. A
code in digits may carry a plus sign. -/
def escapeLength? : List Char → Option Nat
  | [] => none
  | 'u' :: rest => codeEscape? 4 rest
  | 'U' :: rest => codeEscape? 8 rest
  | 'x' :: rest =>
    let digits := digitsOf hexValue? 2 rest
    if digits.isEmpty then some 1
    else if isPlainByte (numberOf 16 digits) then some (1 + digits.length)
    else none
  | c :: rest =>
    if (octalValue? c).isSome then
      let digits := digitsOf octalValue? 3 (c :: rest)
      if isPlainByte (numberOf 8 digits) then some digits.length else none
    else if c.toNat = 0 then none
    else some 1
where
  /-- The length of an escape of exactly `count` characters after its letter. -/
  codeEscape? (count : Nat) (rest : List Char) : Option Nat :=
    let taken := rest.take count
    let written := if taken.head? = some '+' then taken.tail else taken
    let digits := digitsOf hexValue? count written
    if taken.length = count ∧ digits.length = written.length ∧ isCodePoint (numberOf 16 digits) ∧
        0 < numberOf 16 digits then
      some (count + 1)
    else
      none

/-- The number of characters up to the quote that closes a string with backslash escapes, that quote
included; the first `skip` characters belong to an escape that is already read. -/
def escapedStringEnd? : Nat → List Char → Option Nat
  | _, [] => none
  | skip + 1, _ :: rest => (escapedStringEnd? skip rest).map (· + 1)
  | 0, c :: rest =>
    if c = '\'' then
      if rest.head? = some '\'' then (escapedStringEnd? 1 rest).map (· + 1) else some 1
    else if c = '\\' then
      match escapeLength? rest with
      | none => none
      | some length => (escapedStringEnd? length rest).map (· + 1)
    else
      (escapedStringEnd? 0 rest).map (· + 1)

/-! ## Strings with Unicode escapes -/

/-- Reads `count` hexadecimal digits of a code point.  The result counts nothing; a fault is placed
after the character that shows it. -/
def codeDigits (offset : Nat) : Nat → Nat → List Char → Except LexFault Unit
  | 0, code, _ => if isCodePoint code then .ok () else .error ⟨.badCodePoint code, offset⟩
  | _ + 1, _, [] => .error ⟨.cutOffHexDigits, offset⟩
  | count + 1, code, c :: rest =>
    match hexValue? c with
    | none => .error ⟨.badHexDigit c, offset + 1⟩
    | some digit => codeDigits (offset + 1) count (code * 16 + digit) rest

/-- The number of characters after a backslash that belong to its escape; `offset` characters of the
literal precede them. -/
def unicodeEscapeLength (offset : Nat) (text : List Char) : Except LexFault Nat :=
  match text with
  | '\\' :: _ => .ok 1
  | '+' :: rest => (codeDigits (offset + 1) 6 0 rest).map fun _ => 7
  | _ => (codeDigits offset 4 0 text).map fun _ => 4

/-- The number of characters of the literal up to the quote that closes a string with Unicode
escapes, that quote included, when `offset` characters precede the text and its first `skip` belong
to an escape that is already read. -/
def unicodeStringEnd (offset : Nat) : Nat → List Char → Except LexFault Nat
  | _, [] => .error ⟨.unterminatedUnicodeString, offset⟩
  | skip + 1, _ :: rest => unicodeStringEnd (offset + 1) skip rest
  | 0, c :: rest =>
    if c = '\'' then
      if rest.head? = some '\'' then unicodeStringEnd (offset + 1) 1 rest else .ok (offset + 1)
    else if c = '\\' then
      match unicodeEscapeLength (offset + 1) rest with
      | .error fault => .error fault
      | .ok length => unicodeStringEnd (offset + 1) length rest
    else
      unicodeStringEnd (offset + 1) 0 rest

/-! ## Strings with a delimiter of their own -/

/-- The delimiter that ends a `q'...'` string which starts with the given one. -/
def matchingDelimiter (c : Char) : Char :=
  match c with
  | '[' => ']'
  | '{' => '}'
  | '<' => '>'
  | '(' => ')'
  | c => c

/-- The number of characters of a `q'...'` string after its opening quote, the closing quote
included.  Faults count from the letters, `letters` characters before that quote. -/
def delimitedStringEnd (letters : List Char) (text : List Char) : Except LexFault Nat :=
  match text with
  | [] => .error ⟨.missingDelimiter (String.ofList letters), letters.length + 1⟩
  | opening :: body =>
    if opening = ' ' ∨ opening = '\t' ∨ opening = '\r' ∨ opening = '\n' then
      .error ⟨.missingDelimiter (String.ofList letters), letters.length + 1⟩
    else
      match afterDelimiter? [matchingDelimiter opening, '\''] body with
      | some position => .ok (position + 1)
      | none => .error ⟨.unterminatedString, letters.length⟩

end TableLineage.Sql
