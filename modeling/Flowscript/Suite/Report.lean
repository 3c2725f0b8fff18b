import Flowscript.Suite.Discovery
import Flowscript.Suite.TestCase
import Flowscript.Text.Terminal

/-!
# Running tests

Every test of a suite is run once, and the run is reported: a line for each test, the reasons of the
failures, and a summary.

## Main definitions

* `TestResult`, `TestResult.label`, `runTest`.
* `Suite.categoryLines`, `Suite.tally`, `Suite.closing`, `Suite.exitCode` — the parts of the report.
-/

namespace Flowscript

/-- The outcome of a test file. -/
structure TestResult where
  /-- The path of the file. -/
  path : String
  /-- What the file says it is about. -/
  description : Option String
  /-- Why the test failed, if it did. -/
  failure : Option String
deriving DecidableEq, Repr

namespace TestResult

/-- Whether the test passed. -/
def passed (r : TestResult) : Bool := r.failure.isNone

/-- What a test is called in a report: by its description, or else by its file's name. -/
def label (r : TestResult) : String :=
  r.description.getD (((Path.fileName? r.path).bind testStem?).getD "?")

/-- The line that reports a test. -/
def line (noColor : Bool) (r : TestResult) : String :=
  "  " ++ (if r.passed then paint noColor "32" "PASS" else paint noColor "31" "FAIL") ++ "  " ++
    r.label ++ "\n"

/-- The lines that report a failure. -/
def failureLines (r : TestResult) : String :=
  "\n  --- " ++ r.path ++ " ---\n" ++
    String.join ((textLines (r.failure.getD "")).map fun l => "  " ++ l ++ "\n")

end TestResult

/-- Run the test in a file, for the outcome of reading it. -/
def runTest (path : String) (content : Except FileError String) : TestResult :=
  match content with
  | .error e => ⟨path, none, some ("cannot read file: " ++ e.message)⟩
  | .ok text =>
    match TestCase.ofText text with
    | .error e => ⟨path, none, some ("frontmatter error: " ++ e.message)⟩
    | .ok t => ⟨path, t.expectations.description, t.outcome⟩

namespace Suite

/-- What is said at the end of a report, by the numbers of tests that passed and that failed. -/
def tally (noColor : Bool) (passed failed : Nat) : String :=
  "\ntest result: " ++
    if failed = 0 then
      paint noColor "32" "ok" ++ ". " ++ toString passed ++ " passed, 0 failed\n"
    else
      paint noColor "31" "FAILED" ++ ". " ++ toString passed ++ " passed, " ++ toString failed ++
        " failed (of " ++ toString (passed + failed) ++ ")\n"

/-- The summary at the end of a report. -/
def summary (noColor : Bool) (results : List TestResult) : String :=
  tally noColor (results.filter TestResult.passed).length
    (results.filter fun r => !r.passed).length

/-- The reasons of the failures, if there are any. -/
def failures (results : List TestResult) : String :=
  match results.filter fun r => !r.passed with
  | [] => ""
  | failed => "\nfailures:\n" ++ String.join (failed.map TestResult.failureLines)

/-- The part of a report that lists a category. -/
def categoryLines (noColor : Bool) (category : String) (results : List TestResult) : String :=
  "\n" ++ paint noColor "1" (categoryLabel category) ++ "\n" ++
    String.join (results.map (TestResult.line noColor))

/-- What follows the lines about the tests: the failures and the summary. -/
def closing (noColor : Bool) (results : List TestResult) : String :=
  failures results ++ summary noColor results

/-- The exit code of a run: success if every test passed. -/
def exitCode (results : List TestResult) : Nat := if results.all TestResult.passed then 0 else 1

end Suite

end Flowscript
