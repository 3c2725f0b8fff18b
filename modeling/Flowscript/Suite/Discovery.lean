import Flowscript.Files.Path
import Flowscript.Files.Tree

/-!
# Finding tests

The tests below a folder are its files, at any depth, whose names end with `.test.fgs`. They are
grouped into categories by the folder they stand in, and a run may be restricted to some categories.

## Order

Categories are sorted by their names and the tests of a category by the names that lead to them, so
that a suite does not depend on the order in which folders list their entries. Names are compared
character by character, in the order of the characters' numbers.

## Main definitions

* `TestFile`, `Suite`, `Suite.ofTree`.
* `Suite.choose`, `Suite.select` — the categories that a request asks for, or all requests.
* `Suite.unmatched` — the requests that no category answers.
-/

namespace Flowscript

/-- The ending of a test file's name. -/
def testSuffix : String := ".test.fgs"

/-- What a name has before the ending of a test file's name, if it ends so. -/
def testStem? (name : String) : Option String :=
  if testSuffix.toList.isSuffixOf name.toList then
    some (String.ofList (name.toList.take (name.length - testSuffix.length)))
  else none

/-- A file below a folder, as a test. -/
structure TestFile where
  /-- The names that lead to it. -/
  names : List String
  /-- Its bytes. -/
  content : ByteArray

namespace TestFile

/-- The category of a file: the folders it lies in, with backslashes read as slashes. A file right
in the folder that is searched has the empty category. -/
def category (f : TestFile) : String :=
  (String.intercalate "/" f.names.dropLast).map fun c => if c = '\\' then '/' else c

/-- The path of a file, for the path of the folder that was searched. -/
def path (f : TestFile) (root : String) : String := f.names.foldl Path.join root

/-- Whether a file is a test, by its name. -/
def isTest (f : TestFile) : Bool := (f.names.getLast?.bind testStem?).isSome

/-- The order of the names that lead to two files. -/
def namesLE : List String → List String → Bool
  | [], _ => true
  | _ :: _, [] => false
  | a :: as, b :: bs => if a = b then namesLE as bs else decide (a < b)

end TestFile

/-- Tests grouped by category. -/
abbrev Suite := List (String × List TestFile)

namespace Suite

/-- The test files below a folder, in the order in which they are found. -/
def testFiles (t : FileTree) : List TestFile :=
  (t.files.map fun (names, content) => ⟨names, content⟩).filter TestFile.isTest

/-- Group test files by category, in order. -/
def ofFiles (files : List TestFile) : Suite :=
  let sorted := files.mergeSort fun f g => TestFile.namesLE f.names g.names
  let categories := (files.map TestFile.category).eraseDups.mergeSort fun a b => decide (a ≤ b)
  categories.map fun c => (c, sorted.filter (·.category = c))

/-- The tests below a folder. -/
def ofTree (t : FileTree) : Suite := ofFiles (testFiles t)

/-! ### Selection -/

/-- A request without the slashes around it. -/
def requestName (request : String) : String :=
  String.ofList
    (((request.toList.dropWhile (· = '/')).reverse.dropWhile (· = '/')).reverse)

/-- Whether a request asks for a category: for itself, or for one that it lies in. -/
def asksFor (request category : String) : Bool :=
  let name := requestName request
  category = name || (name ++ "/").toList.isPrefixOf category.toList

/-- Put a category in its place among categories sorted by their names. One that is there already is
replaced. -/
def insert (category : String) (files : List TestFile) : Suite → Suite
  | [] => [(category, files)]
  | (c, group) :: rest =>
    if category = c then (category, files) :: rest
    else if category < c then (category, files) :: (c, group) :: rest
    else (c, group) :: insert category files rest

/-- Add the categories that a request asks for to those that were chosen before. -/
def choose (s chosen : Suite) (request : String) : Suite :=
  (s.filter fun (c, _) => asksFor request c).foldl (fun chosen (c, group) => insert c group chosen)
    chosen

/-- The categories that were asked for, one request after the other. No request asks for all of
them. -/
def select (requests : List String) (s : Suite) : Suite :=
  if requests.isEmpty then s else requests.foldl (choose s) []

/-- The requests that ask for no category of the suite, in order. -/
def unmatched (requests : List String) (s : Suite) : List String :=
  (requests.filter fun r => !s.any fun (c, _) => asksFor r c).map requestName

/-- What a category is called. -/
def categoryLabel (category : String) : String := if category = "" then "(root)" else category

end Suite

end Flowscript
