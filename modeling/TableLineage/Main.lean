import TableLineage.Command.Run

/-!
# The program

The program runs a command line on the files of the system.
-/

namespace TableLineage

/-- The failure that an error of the system is. -/
def systemFailure (error : IO.Error) : FileFailure :=
  match error with
  | .noFileOrDirectory _ _ _ => .missing
  | .alreadyExists _ _ _ => .alreadyExists
  | .inappropriateType _ 20 _ => .notFolder
  | .inappropriateType _ 21 _ => .isFolder
  | .permissionDenied _ _ _ => .other "Permission denied (os error 13)"
  | error => .other error.toString

/-- The result of an action of the system. -/
def attempt {α : Type} (action : IO α) : IO (Except FileFailure α) := do
  match ← action.toBaseIO with
  | .ok result => return .ok result
  | .error error => return .error (systemFailure error)

/-- The entries of a folder of the system; `prior` is its path within the folder that is listed. -/
partial def systemEntries (wanted : Path → Bool) (folder prior : Path) :
    IO (List (String × Listing)) := do
  let current ← IO.currentDir
  let found ← (current / folder.text).readDir
  let names := (found.toList.map (·.fileName)).mergeSort (fun a b => decide (a ≤ b))
  names.mapM fun name => do
    let path := folder.join ⟨name⟩
    let relative := prior.join ⟨name⟩
    if !(← (current / path.text).isDir) then
      return (name, .file)
    if !wanted relative then
      return (name, .folder [])
    match ← attempt (systemEntries wanted path relative) with
    | .ok entries => return (name, .folder entries)
    | .error failure => return (name, .unreadable failure.message)

/-- Copies a file.  The target is emptied before the file is read. -/
def copyFile (source target : Path) : IO Unit := do
  let _ ← IO.FS.readBinFile source.text
  IO.FS.writeBinFile target.text ByteArray.empty
  IO.FS.writeBinFile target.text (← IO.FS.readBinFile source.text)

/-- The access to the files of the system. -/
def systemFiles : FileAccess IO where
  currentFolder := return ⟨(← IO.currentDir).toString⟩
  isPresent path := return path.text != "" && (← ((← IO.currentDir) / path.text).pathExists)
  isFolder path := return path.text != "" && (← ((← IO.currentDir) / path.text).isDir)
  read path := attempt (return (← IO.FS.readBinFile path.text).toList)
  write path bytes := attempt (IO.FS.writeBinFile path.text ⟨bytes.toArray⟩)
  createFolder path := attempt (IO.FS.createDirAll path.text)
  copy source target := attempt (copyFile source target)
  list path wanted := attempt (systemEntries wanted path ⟨""⟩)

end TableLineage

open TableLineage in
/-- Runs the program and returns its exit code. -/
def main (words : List String) : IO UInt32 := do
  match ← Command.run systemFiles words with
  | .error error =>
    (← IO.getStderr).putStrLn ("error: " ++ error.message)
    return Command.usageExitCode.toUInt32
  | .ok outcome =>
    (← IO.getStdout).putStr outcome.written.output
    (← IO.getStderr).putStr outcome.written.diagnostics
    return outcome.exitCode.toUInt32
