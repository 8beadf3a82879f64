import TableLineage.Diagram.Flowchart
import TableLineage.Diagram.Mermaid
import TableLineage.File.Access

/-!
# Diagrams in Markdown files

A flowchart is written as a fenced block of Markdown, and a diagram is read from the first Mermaid
block of a Markdown file.
-/

namespace TableLineage

/-! ## Fenced blocks -/

/-- A flowchart in a fenced block of Markdown. -/
def Mermaid.fenced (flowchart : String) : String :=
  "```mermaid\n" ++ flowchart ++ "\n```\n"

/-- The text of the first fenced Mermaid block of a Markdown text: what follows the line of its
opening fence, up to the closing fence or to the end. -/
def Mermaid.block? (markdown : String) : Option String :=
  let text := markdown.toList
  match Text.findPattern? "```mermaid".toList text with
  | none => none
  | some start =>
    match Text.findPattern? ['\n'] (text.drop start) with
    | none => none
    | some lineEnd =>
      let body := text.drop (start + lineEnd + 1)
      match Text.findPattern? "```".toList body with
      | some length => some (String.ofList (body.take length))
      | none => some (String.ofList body)

/-! ## Markdown files -/

/-- Why no diagram could be read from a file. -/
inductive MarkdownError where
  | unreadable (path : Path) (failure : FileFailure)
  | noBlock (path : Path)
  deriving DecidableEq, Repr

/-- The texts of an error and of its cause. -/
def MarkdownError.messages : MarkdownError → List String
  | unreadable path failure =>
    let cause := failure.message
    [s!"[E008] Failed to access '{path.text}': {cause}", cause]
  | noBlock path => ["[E006] No \x60\x60\x60mermaid block found in " ++ path.text]

/-- The text of the first Mermaid block of a file. -/
def FileAccess.mermaidBlock {m : Type → Type} [Monad m] (files : FileAccess m) (path : Path) :
    m (Except MarkdownError String) := do
  match ← files.readText path with
  | .error failure => return .error (.unreadable path failure)
  | .ok markdown =>
    match Mermaid.block? markdown with
    | none => return .error (.noBlock path)
    | some block => return .ok block

end TableLineage
