import TableLineage.Text.Search

/-!
# Where quoted text and comments end

Each function takes the text after an opening delimiter and looks for the closing one.  Positions
are counted from the start of that text.  The comment stripper and the tokenizer both use them, so
that they agree on what is quoted.
-/

namespace TableLineage.Sql

/-- The position of the closing quote.  A doubled quote stands for one quote of the text and does
not close it, nor does anything directly after an escape character. -/
def closingQuote? {α : Type} [DecidableEq α] (quote : α) (escape : Option α) : List α → Option Nat
  | [] => none
  | c :: cs =>
    if escape = some c then
      match cs with
      | [] => none
      | _ :: rest => (closingQuote? quote escape rest).map (· + 2)
    else if c = quote then
      match cs with
      | [] => some 0
      | next :: rest =>
        if next = quote then (closingQuote? quote escape rest).map (· + 2) else some 0
    else
      (closingQuote? quote escape cs).map (· + 1)

/-- The text of a quoted name, in which a doubled quote stands for one. -/
def undoubled (quote : Char) : List Char → List Char
  | [] => []
  | c :: cs =>
    match cs with
    | [] => [c]
    | next :: rest =>
      if c = quote ∧ next = quote then c :: undoubled quote rest
      else c :: undoubled quote (next :: rest)

/-- The position after the `*/` that closes a block comment.  If comments nest, `depth` comments
are open inside the one to close. -/
def blockEnd? (nested : Bool) (depth : Nat) : List Char → Option Nat
  | [] => none
  | c :: cs =>
    match cs with
    | [] => none
    | next :: rest =>
      if c = '*' ∧ next = '/' then
        match depth with
        | 0 => some 2
        | inner + 1 => (blockEnd? nested inner rest).map (· + 2)
      else if nested ∧ c = '/' ∧ next = '*' then
        (blockEnd? nested (depth + 1) rest).map (· + 2)
      else
        (blockEnd? nested depth (next :: rest)).map (· + 1)

/-- The position after the second of two delimiters with the same text, when the first has been
passed. -/
def afterDelimiter? (delimiter : List Char) (text : List Char) : Option Nat :=
  (Text.findPattern? delimiter text).map (· + delimiter.length)

end TableLineage.Sql
