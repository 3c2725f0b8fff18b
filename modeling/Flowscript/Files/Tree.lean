/-!
# A tree of files

Files and folders as one value: a file is its bytes, and a folder is a list of named entries in no
particular order. Here names lead through the tree one at a time; `Flowscript.Files.Disk` reads them
off a path.

## Main definitions

* `FileError` — why a file cannot be read or written.
* `FileTree`, `FileTree.get`, `FileTree.put`.
* `FileTree.files` — every file below a folder.
* `View`, `View.readText`, `View.isFile` — what a command needs to know of the files.
-/

namespace Flowscript

/-- Why a file cannot be read or written. -/
inductive FileError where
  /-- Nothing is there. -/
  | notFound
  /-- The path leads through something that is no folder. -/
  | notFolder
  /-- A folder is there instead of a file. -/
  | isFolder
  /-- A name, or the whole path, is longer than a system takes. -/
  | nameTooLong
  /-- The file is not UTF-8. -/
  | notText
  /-- Any other failure that a system reports, by its description and its number. -/
  | system (description : String) (number : Nat)
deriving DecidableEq, Repr

/-- The message of an error. -/
def FileError.message : FileError → String
  | .notFound => "No such file or directory (os error 2)"
  | .notFolder => "Not a directory (os error 20)"
  | .isFolder => "Is a directory (os error 21)"
  | .nameTooLong => "File name too long (os error 36)"
  | .notText => "stream did not contain valid UTF-8"
  | .system description number => description ++ " (os error " ++ toString number ++ ")"

/-- A file or a folder. -/
inductive FileTree where
  /-- A file with its bytes. -/
  | file (content : ByteArray)
  /-- A folder with its entries, in the order in which they are listed. -/
  | folder (entries : List (String × FileTree))

namespace FileTree

/-- The entry of a folder with a name. A file has no entries. -/
def entry? (name : String) : FileTree → Except FileError FileTree
  | .file _ => .error .notFolder
  | .folder entries =>
    match entries.lookup name with
    | some t => .ok t
    | none => .error .notFound

/-- What names, one inside the other, lead to. -/
def get : List String → FileTree → Except FileError FileTree
  | [], t => .ok t
  | name :: rest, t => do get rest (← t.entry? name)

/-- Whether this is a folder. -/
def isFolder : FileTree → Bool
  | .file _ => false
  | .folder _ => true

/-- The text that bytes encode. -/
def decode (content : ByteArray) : Except FileError String :=
  match String.fromUTF8? content with
  | some text => .ok text
  | none => .error .notText

/-- The text of a file. -/
def text : FileTree → Except FileError String
  | .file content => decode content
  | .folder _ => .error .isFolder

/-! ### Files below a folder -/

/-- Every file below a folder with the given entries: the names that lead to it, and its bytes. -/
def filesOf : List (String × FileTree) → List (List String × ByteArray)
  | [] => []
  | (name, .file content) :: rest => ([name], content) :: filesOf rest
  | (name, .folder entries) :: rest =>
    (filesOf entries).map (fun (names, content) => (name :: names, content)) ++ filesOf rest

/-- Every file below a folder. There is none below a file. -/
def files : FileTree → List (List String × ByteArray)
  | .file _ => []
  | .folder entries => filesOf entries

/-! ### Writing -/

/-- Put an entry in the place of the one with its name, or behind the others. -/
def putEntry (name : String) (t : FileTree) (entries : List (String × FileTree)) :
    List (String × FileTree) :=
  if (entries.lookup name).isSome then
    entries.map fun (n, old) => if n == name then (n, t) else (n, old)
  else entries ++ [(name, t)]

/-- Write a file into the folder that names lead to. -/
def put (name : String) (content : ByteArray) : List String → FileTree → FileTree
  | _, .file bytes => .file bytes
  | [], .folder entries => .folder (putEntry name (.file content) entries)
  | next :: rest, .folder entries =>
    match entries.lookup next with
    | none => .folder entries
    | some t => .folder (putEntry next (put name content rest t) entries)

end FileTree

/-- What a command sees of the files: for every path, what stands there. -/
abbrev View := String → Except FileError FileTree

namespace View

/-- The text of a file. -/
def readText (view : View) (path : String) : Except FileError String := do
  (← view path).text

/-- Whether a file stands at a path. -/
def isFile (view : View) (path : String) : Bool :=
  match view path with
  | .ok (.file _) => true
  | _ => false

end View

end Flowscript
