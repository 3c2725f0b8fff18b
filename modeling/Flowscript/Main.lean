import Flowscript.Command.Session

/-!
# The program

The thin outer layer: it looks at the files that a command needs, runs the command, writes what the
command asks for and prints its outcome. Everything that is decided is decided elsewhere.
-/

namespace Flowscript

/-- The number of a failure. Some calls report it negated, so the smaller of the two readings is
the number itself. -/
def failureNumber (code : UInt32) : Nat :=
  min code.toNat (0 - code).toNat

/-- The error that a failure of the system stands for. -/
def fileErrorOf : IO.Error → FileError
  | .noFileOrDirectory .. => .notFound
  | .inappropriateType _ code _ => if failureNumber code = 20 then .notFolder else .isFolder
  | .invalidArgument _ code text =>
    if failureNumber code = 36 then .nameTooLong else .system text (failureNumber code)
  | .permissionDenied _ code _ => .system "Permission denied" (failureNumber code)
  | e => .system (toString e) 0

/-- What stands at an entry of a folder, with everything below it. -/
partial def snapshot (entry : IO.FS.DirEntry) : IO FileTree := do
  if (← entry.path.metadata).type == .dir then
    let entries ← (← entry.path.readDir).toList.mapM fun e => do
      return (e.fileName, ← snapshot e)
    return .folder entries
  else
    return .file (← IO.FS.readBinFile entry.path)

/-- Turn a failure of the system into a value. -/
def caught {α : Type} (action : IO α) : IO (Except FileError α) := do
  match ← action.toBaseIO with
  | .ok a => return .ok a
  | .error e => return .error (fileErrorOf e)

/-- What stands at a path. What stands below a folder is looked at only if `deep`; a failure there
ends the program. -/
def look (deep : Bool) (path : String) : IO (Except FileError FileTree) := do
  let entry : IO.FS.DirEntry := ⟨".", path⟩
  match ← caught entry.path.metadata with
  | .error e => return .error e
  | .ok found =>
    if found.type == .dir then
      return .ok (← if deep then snapshot entry else pure (.folder []))
    else
      return (← caught (IO.FS.readBinFile entry.path)).map .file

/-- What a command sees of the files, if it looks at some paths only. -/
def viewOf (deep : Bool) (paths : List String) : IO View := do
  let seen ← paths.mapM fun path => return (path, ← look deep path)
  return fun path => (seen.lookup path).getD (.error .notFound)

/-- Print an outcome and give its exit code. -/
def emit (o : Outcome) : IO UInt32 := do
  IO.eprint o.stderr
  IO.print o.stdout
  return o.exit.toUInt32

/-- Write a document, or say why it cannot be written. -/
def save (path document said : String) : IO Outcome := do
  match ← caught (IO.FS.writeBinFile path document.toUTF8) with
  | .ok () => return ⟨0, "", said⟩
  | .error e => return writeFailed path said e

/-- Run the program on the files of the system. -/
def runOnSystem (args : List String) : IO UInt32 := do
  let terminal ← if (← IO.getEnv "NO_COLOR").isSome then pure none else IO.getEnv "TERM"
  match Invocation.ofArguments args with
  | .ok (.test general arguments) =>
    emit (Test.run (← viewOf true [arguments.path]) general arguments)
  | .ok (.build general arguments) =>
    let view ← viewOf false (Build.paths arguments)
    match Build.run view (terminalHasColor terminal) general arguments with
    | .done outcome => emit outcome
    | .save path document said => emit (← save path document said)
  | _ => emit (runProgram terminal args ⟨.folder [], []⟩).1

end Flowscript

/-- The program's entry. -/
def main (args : List String) : IO UInt32 := Flowscript.runOnSystem args
