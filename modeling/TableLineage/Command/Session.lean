import TableLineage.File.Access

/-!
# Sessions

A command writes lines to its output and its diagnostics, and it can stop with an error or an exit
code.
-/

namespace TableLineage.Command

/-- What a command has written so far. -/
structure Written where
  output : String
  diagnostics : String
  deriving DecidableEq, Repr

/-- Why a command stops before its end. -/
inductive Stop where
  /-- An error, from the outermost context to the innermost cause. -/
  | error (messages : List String)
  | exit (code : Nat)
  deriving DecidableEq, Repr

/-- The steps of a command that uses the files that `m` gives access to. -/
abbrev Session (m : Type → Type) := ExceptT Stop (StateT Written m)

/-- What remains of a command. -/
structure Outcome where
  exitCode : Nat
  written : Written
  deriving DecidableEq, Repr

namespace Session

variable {m : Type → Type} [Monad m]

/-- Writes text to the output. -/
def print (text : String) : Session m Unit :=
  modify fun written => { written with output := written.output ++ text }

/-- Writes a line to the output. -/
def printLine (line : String) : Session m Unit :=
  print (line ++ "\n")

/-- Writes a line to the diagnostics. -/
def note (line : String) : Session m Unit :=
  modify fun written => { written with diagnostics := written.diagnostics ++ line ++ "\n" }

/-- Writes the records that are shown to the diagnostics. -/
def log (verbose : Bool) (records : List LogRecord) : Session m Unit :=
  (records.filter fun record => verbose || record.level == .warn).forM fun record =>
    note record.line

/-- Does something with files. -/
def access {α : Type} (action : m α) : Session m α :=
  ExceptT.lift (StateT.lift action)

/-- Stops with an error in a context. -/
def fail {α : Type} (context : String) (messages : List String) : Session m α :=
  throw (.error (context :: messages))

/-- The result of an action on files, which stops the session if it fails. -/
def require {α : Type} (context : String) (action : m (Except FileFailure α)) : Session m α := do
  match ← access action with
  | .ok result => return result
  | .error failure => fail context [failure.message]

/-- The outcome of a session. -/
def run (session : Session m Unit) : m Outcome := do
  let (result, written) ← (ExceptT.run session).run ⟨"", ""⟩
  match result with
  | .ok () => return ⟨0, written⟩
  | .error (.exit code) => return ⟨code, written⟩
  | .error (.error messages) =>
    let line := "Error: " ++ ": ".intercalate messages ++ "\n"
    return ⟨1, { written with diagnostics := written.diagnostics ++ line }⟩

end Session

end TableLineage.Command
