import Flowscript.Compile
import Flowscript.Settings
import Flowscript.Text.Search
import Flowscript.Text.Space

/-!
# Test cases

A test case is a source behind a settings block. The block stands between two marks, `---`, and says
what compiling the source should give; the rest of the file is the source.

## The marks

The first mark must stand at the very beginning, byte order marks aside. The second one is the first
`---` at the beginning of a later line. Neither has to fill its line: what follows the first mark on
its line belongs to the settings, and what follows the second one to the source.

## What is checked

An expected error is looked for in the message alone; its line is checked only if an error is
expected at all. Without one, the document is compared with the expected document, white space at
the ends aside, and then searched for the expected fragments.

## Main definitions

* `Expectations` — what a test case expects.
* `TestCase`, `TestCase.ofText` — a test case and how it is read.
* `Expectations.check` — what is wrong with a result, if anything.
* `TestCase.outcome`.
-/

namespace Flowscript

/-- What a test case expects of compiling its source. -/
structure Expectations where
  /-- What the test is about. -/
  description : Option String := none
  /-- The whole document. -/
  output : Option String := none
  /-- Fragments of the document. -/
  fragments : List String := []
  /-- A part of the error message. -/
  error : Option String := none
  /-- The line of the error. -/
  errorLine : Option Nat := none
  /-- The options under which the source is compiled. -/
  options : Options := .strict
deriving DecidableEq, Repr

/-- Why a file is no test case. -/
inductive TestFileError where
  /-- The file does not begin with a mark. -/
  | noOpeningMark
  /-- The settings block is not closed. -/
  | noClosingMark
  /-- The settings block is refused. -/
  | settings (e : SettingsError)
deriving DecidableEq, Repr

/-- The message of an error. -/
def TestFileError.message : TestFileError → String
  | .noOpeningMark => "missing opening --- frontmatter delimiter"
  | .noClosingMark => "missing closing --- frontmatter delimiter"
  | .settings e => e.message

namespace Expectations

/-- A text value. -/
def text (key : String) : Toml.Value → Except SettingsError String
  | .string s => .ok s
  | _ => .error (.wrongKind key)

/-- A list of text values. -/
def texts (key : String) : Toml.Value → Except SettingsError (List String)
  | .array items => items.mapM (text key)
  | _ => .error (.wrongKind key)

/-- A line number, which is not negative. -/
def lineNumber (key : String) : Toml.Value → Except SettingsError Nat
  | .integer (.ofNat n) => .ok n
  | _ => .error (.wrongKind key)

/-- Set the expectation of a name. -/
def setEntry (x : Expectations) (name : String) (v : Toml.Value) :
    Except SettingsError Expectations :=
  if name = "description" then (text name v).map fun s => { x with description := some s }
  else if name = "expect_output" then (text name v).map fun s => { x with output := some s }
  else if name = "expect_contains" then (texts name v).map fun l => { x with fragments := l }
  else if name = "expect_error" then (text name v).map fun s => { x with error := some s }
  else if name = "expect_error_line" then
    (lineNumber name v).map fun n => { x with errorLine := some n }
  else if name = Settings.switchTable then
    (Settings.switches v).map fun o => { x with options := o }
  else .error (.unknownKey name)

/-- The expectations that a settings block states. -/
def ofText (block : String) : Except SettingsError Expectations :=
  match Toml.parse? block with
  | none => .error .malformed
  | some entries => entries.foldlM (fun x (name, v) => setEntry x name v) {}

/-- Compare the result of compiling with the expectations: a reason, if it falls short of them. -/
def check (x : Expectations) (result : Except LocatedError String) : Option String :=
  match x.error, result with
  | some expected, .error e =>
    if !holds e.error.message expected then
      some ("expected error containing \"" ++ expected ++ "\", got: " ++ e.text)
    else
      match x.errorLine with
      | none => none
      | some line =>
        if line = e.line then none
        else some ("expected error on line " ++ toString line ++ ", but it was reported on line " ++
          toString e.line)
  | some expected, .ok _ =>
    some ("expected error containing \"" ++ expected ++ "\", but translation succeeded")
  | none, .error e => some ("unexpected translation error: " ++ e.text)
  | none, .ok document =>
    match x.output.filter (fun expected => trim document ≠ trim expected) with
    | some expected =>
      some ("output mismatch\n  expected: " ++ trim expected ++ "\n  actual:   " ++ trim document)
    | none =>
      (x.fragments.find? fun fragment => !holds document fragment).map fun fragment =>
        "output does not contain \"" ++ fragment ++ "\"\n  actual: " ++ trim document

end Expectations

/-- A test case: what is expected, and the source. -/
structure TestCase where
  /-- What is expected. -/
  expectations : Expectations
  /-- The source, exactly as it stands in the file. -/
  source : String
deriving DecidableEq, Repr

namespace TestCase

/-- The mark before and behind the settings block. -/
def mark : String := "---"

/-- Skip one line end: a line feed, or a carriage return and a line feed. -/
def skipNewline (cs : List Char) : List Char :=
  match behind? "\n" cs with
  | some rest => rest
  | none => (behind? "\r\n" cs).getD cs

/-- Cut a test file into its settings block and its source. Carriage returns at the end of the block
are left out. -/
def cut (content : String) : Except TestFileError (String × String) :=
  match behind? mark (content.toList.dropWhile (· = '\ufeff')) with
  | none => .error .noOpeningMark
  | some rest =>
    match cutAtFirst? ('\n' :: mark.toList) (skipNewline rest) with
    | none => .error .noClosingMark
    | some (block, source) =>
      .ok (String.ofList (dropEndWhile (· = '\r') block), String.ofList (skipNewline source))

/-- Read a test file. -/
def ofText (content : String) : Except TestFileError TestCase :=
  match cut content with
  | .error e => .error e
  | .ok (block, source) =>
    match Expectations.ofText block with
    | .error e => .error (.settings e)
    | .ok expectations => .ok ⟨expectations, source⟩

/-- Compile the source of a test case and compare: a reason, if the test fails. -/
def outcome (t : TestCase) : Option String :=
  t.expectations.check (compile t.source 0 t.expectations.options)

end TestCase

end Flowscript
