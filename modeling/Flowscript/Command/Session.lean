import Flowscript.Command.Build
import Flowscript.Command.Test
import Flowscript.Files.Disk

/-!
# A run of the program

A run takes the arguments, the files and what is known of the terminal, and gives the outcome and
the files it leaves.

## Main definitions

* `terminalHasColor` — whether diagnostics may be coloured.
* `Invocation.perform` — an invocation on a disk.
* `runProgram` — the whole program on a disk.
-/

namespace Flowscript

/-- What the program calls itself. -/
def programVersion : String := "fgscript 0.1.0\n"

/-- How the program is used. -/
def programHelp : String :=
  "FGScript to Flowgorithm translator\n\n" ++
  "Usage: fgscript [OPTIONS] <COMMAND>\n\n" ++
  "Commands:\n" ++
  "  build  Translate an FGScript file into a Flowgorithm document\n" ++
  "  test   Run .test.fgs test files\n" ++
  "  help   Print this message or the help of the given subcommand(s)\n\n" ++
  "Options:\n" ++
  "      --no-color  Disable colored error output\n" ++
  "  -v, --verbose   Trace each stage to stderr\n" ++
  "  -h, --help      Print help\n" ++
  "  -V, --version   Print version\n"

/-- Whether diagnostics may be coloured, by the name of the terminal, if it has one. -/
def terminalHasColor : Option String → Bool
  | none => false
  | some name => name ≠ "dumb"

/-- What is left of a build whose document could not be written. -/
def writeFailed (path said : String) (e : FileError) : Outcome :=
  .failure (said ++ "error: cannot write '" ++ path ++ "': " ++ e.message ++ "\n")

/-- Carry out an invocation on a disk. -/
def Invocation.perform (terminal : Option String) (d : Disk) : Invocation → Outcome × Disk
  | .version => (⟨0, programVersion, ""⟩, d)
  | .help => (⟨0, programHelp, ""⟩, d)
  | .test general arguments => (Test.run d.at? general arguments, d)
  | .build general arguments =>
    match Build.run d.at? (terminalHasColor terminal) general arguments with
    | .done outcome => (outcome, d)
    | .save path document said =>
      match d.write path document.toUTF8 with
      | .ok d' => (⟨0, "", said⟩, d')
      | .error e => (writeFailed path said e, d)

/-- The exit code of a command line that is refused. -/
def usageExit : Nat := 2

/-- Run the program on a disk. -/
def runProgram (terminal : Option String) (args : List String) (d : Disk) : Outcome × Disk :=
  match Invocation.ofArguments args with
  | .ok invocation => invocation.perform terminal d
  | .error e => (⟨usageExit, "", "error: " ++ e.message ++ "\n"⟩, d)

end Flowscript
