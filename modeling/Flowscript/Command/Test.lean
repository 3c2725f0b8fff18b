import Flowscript.Command.Line
import Flowscript.Command.Outcome
import Flowscript.Suite.Report

/-!
# The command `test`

A path to a file runs that file, whatever its name. A path to a folder runs the test files below it,
category by category; requests restrict the run to some categories. A path to nothing is like an
empty folder.

## Main definitions

* `Test.suiteAt` — the tests below a path.
* `Test.runFound`, `Test.results` — tests that were found below a path, and what became of them.
* `Test.runFile`, `Test.runSuite`, `Test.list`.
* `Test.run` — the command.
-/

namespace Flowscript

namespace Test

/-- The tests below a path. -/
def suiteAt (view : View) (path : String) : Suite :=
  match view path with
  | .ok t => Suite.ofTree t
  | .error _ => []

/-- What is said if there are no tests. -/
def noTests (path : String) : String := "no " ++ testSuffix ++ " files found in " ++ path ++ "\n"

/-- List the categories of the tests at a path. -/
def list (view : View) (path : String) : Outcome :=
  if view.isFile path then ⟨0, "", "(single file, no categories)\n"⟩
  else
    match suiteAt view path with
    | [] => ⟨0, "", noTests path⟩
    | suite =>
      ⟨0, "", "available categories:\n" ++ String.join (suite.map fun (category, files) =>
        "  " ++ Suite.categoryLabel category ++ " (" ++ toString files.length ++ " tests)\n")⟩

/-- What is said about a request that asks for no category. -/
def unmatchedLine (suite : Suite) (request : String) : String :=
  "warning: category '" ++ request ++ "' not found (available: " ++
    String.intercalate ", " (suite.map fun (c, _) => Suite.categoryLabel c) ++ ")\n"

/-- Run the test in a single file. -/
def runFile (view : View) (noColor : Bool) (path : String) : Outcome :=
  let results := [runTest path (view.readText path)]
  ⟨Suite.exitCode results, "",
    String.join (results.map (TestResult.line noColor)) ++ Suite.closing noColor results⟩

/-- Run a test that was found below `root`. -/
def runFound (view : View) (root : String) (f : TestFile) : TestResult :=
  runTest (f.path root) (view.readText (f.path root))

/-- The results of the tests of a suite that was found below `root`, by category. -/
def results (view : View) (root : String) (suite : Suite) : List (String × List TestResult) :=
  suite.map fun (category, files) => (category, files.map (runFound view root))

/-- Run the tests of a suite that was found below `root`, after `said` was said. -/
def runSuite (view : View) (noColor : Bool) (root said : String) (suite : Suite) : Outcome :=
  let results := results view root suite
  let all := results.flatMap (·.2)
  ⟨Suite.exitCode all, "",
    said ++ String.join (results.map fun (c, rs) => Suite.categoryLines noColor c rs) ++
      Suite.closing noColor all⟩

/-- Run the tests of a folder that are asked for. -/
def runFolder (view : View) (noColor : Bool) (path : String) (requests : List String) : Outcome :=
  match suiteAt view path with
  | [] => .failure (noTests path)
  | suite =>
    let said := String.join ((suite.unmatched requests).map (unmatchedLine suite))
    match suite.select requests with
    | [] => .failure (said ++ "no matching categories found\n")
    | selected => runSuite view noColor path said selected

/-- Carry out the command `test`. -/
def run (view : View) (g : General) (a : TestArguments) : Outcome :=
  if a.listCategories then list view a.path
  else if view.isFile a.path then runFile view g.noColor a.path
  else runFolder view g.noColor a.path a.categories

end Test

end Flowscript
