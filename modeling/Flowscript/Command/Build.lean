import Flowscript.Command.Line
import Flowscript.Command.Outcome
import Flowscript.Compile
import Flowscript.Diagnostic.Layout
import Flowscript.Files.Path
import Flowscript.Files.Tree
import Flowscript.Settings
import Flowscript.Text.Quoted

/-!
# The command `build`

A build reads one source, chooses options, compiles, and prints the document or hands it over to be
written. It looks at the files through a `View` and changes none: writing is left to whoever runs
the build, so that a failed build cannot have written anything.

## Options

`--lenient` decides alone. Otherwise a settings document does: the one that is named, or the one
called `fgscript.toml` next to the source, if a file of that name is there; without one the reading
is strict.

## Main definitions

* `Build.chooseOptions` — the options of a build, and what is traced about them.
* `Build.paths` — the paths that a build may look at.
* `BuildResult`, `Build.run`.
-/

namespace Flowscript

/-- How a build ends. -/
inductive BuildResult where
  /-- With nothing left to do. -/
  | done (outcome : Outcome)
  /-- With a document to be written to a path; `said` was said on the way. -/
  | save (path document said : String)
deriving DecidableEq, Repr

namespace Build

/-- The name of a settings document next to a source. -/
def settingsName : String := "fgscript.toml"

/-- The path of the settings document next to a source. -/
def adjacentSettings (source : String) : String :=
  match Path.parent? source with
  | some folder => Path.join folder settingsName
  | none => settingsName

/-- Read a settings document. -/
def loadSettings (view : View) (path : String) : Except String Options :=
  match view.readText path with
  | .error e => .error ("cannot read '" ++ path ++ "': " ++ e.message)
  | .ok text =>
    match Settings.ofText text with
    | .error e => .error ("invalid config '" ++ path ++ "': " ++ e.message)
    | .ok options => .ok options

/-- The settings document of a build, if there is one. -/
def settingsPath? (view : View) (a : BuildArguments) : Option String :=
  match a.config with
  | some path => some path
  | none =>
    let path := adjacentSettings a.file
    if view.isFile path then some path else none

/-- The paths that a build may look at. -/
def paths (a : BuildArguments) : List String :=
  [a.file, a.config.getD (adjacentSettings a.file)]

/-- Say something only if everything is to be said. -/
def trace (verbose : Bool) (line : String) : String := if verbose then line ++ "\n" else ""

/-- The options of a build, and what is said about where they come from. -/
def chooseOptions (view : View) (verbose : Bool) (a : BuildArguments) :
    Except String (Options × String) :=
  if a.lenient then .ok (.lenient, "")
  else
    match settingsPath? view a with
    | none => .ok (.strict, trace verbose "config: defaults")
    | some path =>
      (loadSettings view path).map fun options => (options, trace verbose ("config: " ++ path))

/-- The tokens of a source, a line for each line that has any. -/
def tokenDump (source : String) : String :=
  String.join ((tokenizeSource source).map fun (number, tokens) =>
    toString number ++ ": " ++ quotedList tokens ++ "\n")

/-- Compile a source that was read, under options that were chosen; `said` was said on the way. -/
def finish (color verbose : Bool) (a : BuildArguments) (source said : String)
    (options : Options) : BuildResult :=
  let said := said ++ trace verbose ("options: " ++ options.traced)
  match compile source 0 options with
  | .error e => .done (.failure (said ++ e.diagnostic.render color a.file source))
  | .ok document =>
    let said := said ++ trace verbose ("translated " ++ toString (textLines source).length ++
      " line(s) into " ++ toString document.utf8ByteSize ++ " byte(s)")
    if a.check then
      .done ⟨0, "", said ++ "ok: " ++ a.file ++ " translated successfully\n"⟩
    else
      match a.output with
      | none => .done ⟨0, document, said⟩
      | some path => .save path document said

/-- Carry out a build. `color` says whether the terminal shows colours; the user may still turn them
off. -/
def run (view : View) (color : Bool) (g : General) (a : BuildArguments) : BuildResult :=
  match view.readText a.file with
  | .error e => .done (.failure ("error: cannot read '" ++ a.file ++ "': " ++ e.message ++ "\n"))
  | .ok source =>
    if a.tokens then .done ⟨0, tokenDump source, ""⟩
    else
      match chooseOptions view g.verbose a with
      | .error e => .done (.failure ("error: " ++ e ++ "\n"))
      | .ok (options, said) =>
        finish (color && !g.noColor) g.verbose a source said options

end Build

end Flowscript
