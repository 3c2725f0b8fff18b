/-!
# Paths

A path is the text that a user wrote, or such a text with names joined to it; it is shown exactly as
it is. Its parts are what stands between slashes. Empty parts and parts `.` mean "here" and are
passed over, except that a `.` at the very beginning is shown when the path is taken apart.

## Main definitions

* `Path.parts` — the parts of a path.
* `Path.parent?`, `Path.fileName?`, `Path.join`.
-/

namespace Flowscript

namespace Path

/-- Cut a text at every slash. There is always at least one part, which may be empty. -/
def parts (path : String) : List String :=
  (path.toList.foldr
    (fun c (first, rest) => if c = '/' then ([], first :: rest) else (c :: first, rest))
    ([], [])) |> fun (first, rest) => (first :: rest).map String.ofList

/-- A part that leads nowhere else. -/
def isHere (part : String) : Bool := part = "" || part = "."

/-- Leave out parts at the end that lead nowhere else. -/
def dropHere (ps : List String) : List String := (ps.reverse.dropWhile isHere).reverse

/-- A name inside a folder. -/
def join (folder name : String) : String :=
  if folder = "" then name
  else if folder.toList.getLast? = some '/' then folder ++ name
  else folder ++ "/" ++ name

/-- The path of the folder that a path lies in, read off the text alone. A single name lies in the
folder with the empty path; the empty path and the root lie in none. -/
def parent? (path : String) : Option String :=
  match parts path with
  | [] => none
  | first :: rest =>
    match dropHere rest with
    | [] => if first = "" then none else some ""
    | named =>
      match first, dropHere named.dropLast with
      | "", [] => some "/"
      | first, outer => some (String.intercalate "/" (first :: outer))

/-- The name that a path ends with. A path that ends with `..` has none. -/
def fileName? (path : String) : Option String :=
  let named := match parts path with
    | [] => none
    | first :: rest =>
      match (dropHere rest).getLast? with
      | some name => some name
      | none => if isHere first then none else some first
  named.filter (· ≠ "..")

end Path

end Flowscript
