import TableLineage.Sql.Comment
import TableLineage.Sql.Cte
import TableLineage.Sql.Reference
import TableLineage.Sql.Tokenized

/-!
# Scanning SQL text

A scan strips comments, cuts the text into tokens and statements, and collects the common table
expressions and the table references of each statement.  It never fails: what cannot be read is left
out, with a warning.
-/

namespace TableLineage.Sql

/-! ## Warnings -/

/-- A tolerable problem of SQL text. -/
inductive ScanWarning where
  | unterminatedBlockComment (line : Nat)
  | unterminatedQuote (quote : Char) (line : Nat)
  /-- No tokens were taken from the line on. -/
  | tokenizerRecovered (line : Nat) (message : String)
  /-- No tokens were taken at all. -/
  | tokenizerFailed (message : String)
  deriving DecidableEq, Repr

/-- The text of a warning. -/
def ScanWarning.message : ScanWarning → String
  | unterminatedBlockComment line =>
    s!"unterminated block comment at line {line}; rest of file ignored"
  | unterminatedQuote quote line =>
    s!"unterminated {quote} quote at line {line}; rest of file ignored"
  | tokenizerRecovered line message => s!"tokenizer error ({message}); scanned up to line {line}"
  | tokenizerFailed message => s!"tokenizer error ({message}); no tables extracted"

/-- The warning for an issue of stripping a text. -/
def StripIssue.warning (sql : List Char) : StripIssue → ScanWarning
  | unterminatedBlockComment offset => .unterminatedBlockComment (Text.lineOf sql offset)
  | unterminatedQuote quote offset => .unterminatedQuote quote (Text.lineOf sql offset)

/-- The warning for a recovery, if one was needed. -/
def Recovery.warning? : Recovery → Option ScanWarning
  | unneeded => none
  | cut fault _ => some (.tokenizerRecovered fault.line fault.cause.message)
  | failed _ _ again => some (.tokenizerFailed again.cause.message)

/-! ## Scans -/

/-- What a scan collects from a statement. -/
structure StatementScan where
  /-- The names of common table expressions, in the order of their definitions. -/
  defined : List String
  findings : List Finding
  deriving DecidableEq, Repr

/-- The scan of one statement. -/
def StatementScan.ofTokens (statement : List Token) : StatementScan :=
  ⟨definedNames statement, Sql.findings statement⟩

/-- The scope of the statement's common table expressions. -/
def StatementScan.ctes (scan : StatementScan) : CteScope :=
  .ofNames scan.defined

/-- The statement's table references in order. -/
def StatementScan.references (scan : StatementScan) : List TableReference :=
  scan.findings.filterMap Finding.reference?

/-- What a scan collects from a text. -/
structure TextScan where
  statements : List StatementScan
  warnings : List ScanWarning
  recovery : Recovery
  deriving DecidableEq, Repr

/-- The scan of a text in a dialect. -/
def scan (dialect : Dialect) (sql : String) : TextScan :=
  let text := sql.toList
  let stripped := stripComments dialect.quoteRules text
  let tokenized := tokenize dialect stripped.text
  { statements := (splitStatements tokenized.tokens).map StatementScan.ofTokens
    warnings :=
      stripped.issues.map (·.warning text) ++ tokenized.recovery.warning?.toList
    recovery := tokenized.recovery }

/-- The references of all statements in order. -/
def TextScan.references (scan : TextScan) : List TableReference :=
  scan.statements.flatMap StatementScan.references

/-! ## Notes on the way -/

/-- The note on a recovery. -/
def Recovery.note? : Recovery → Option String
  | unneeded => none
  | cut fault bytes | failed fault bytes _ =>
    some (s!"tokenizer failed at line {fault.line}: {fault.cause.message}; " ++
      s!"retrying on the first {bytes} bytes")

/-- The note on a finding that refers to no table. -/
def Finding.note? : Finding → Option String
  | outsideQuery word => some s!"ignoring {word} inside a function call"
  | factor (.function name) => some s!"'{name.display}' is a table function"
  | factor _ => none

/-- The notes on a statement in order. -/
def StatementScan.notes (scan : StatementScan) : List String :=
  scan.defined.map (fun name => s!"registered CTE '{name}'") ++
    scan.findings.filterMap Finding.note?

/-- The notes on a text in order. -/
def TextScan.notes (scan : TextScan) : List String :=
  scan.recovery.note?.toList ++ scan.statements.flatMap StatementScan.notes

end TableLineage.Sql
