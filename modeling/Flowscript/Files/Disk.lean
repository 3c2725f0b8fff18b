import Flowscript.Files.Path
import Flowscript.Files.Tree

/-!
# Files by their paths

A `Disk` is a tree of files together with the folder in which a command works. A path that begins
with a slash starts at the root of the tree, and any other path starts at the working folder.

## Following a path

A path is followed part by part. Every part but the last must lead to a folder, and so must the last
one if the path ends with a slash. A part `..` leads to the folder around; around the root there is
only the root itself. Whether a name is too long is noticed when its turn comes, but the length of
the whole path is looked at first.

## Main definitions

* `Disk`, `Disk.locate`, `Disk.at?` — what a path leads to.
* `Disk.write` — a disk on which a file was written.
-/

namespace Flowscript

/-- A tree of files and the folder in which a command works. -/
structure Disk where
  /-- Everything there is. -/
  root : FileTree
  /-- The names that lead from the root to the working folder. -/
  here : List String := []

namespace Disk

/-- The number of bytes that a name may take. -/
def longestName : Nat := 255

/-- The number of bytes that a path may take. -/
def longestPath : Nat := 4095

/-- Follow the parts of a path from the place that `place` names: the names that lead from the root
to where the path leads. -/
def follow (root : FileTree) (place : List String) : List String → Except FileError (List String)
  | [] => .ok place
  | part :: rest => do
    let t ← root.get place
    if !t.isFolder then
      throw .notFolder
    if Path.isHere part then
      follow root place rest
    else if part = ".." then
      follow root place.dropLast rest
    else if part.utf8ByteSize > longestName then
      throw .nameTooLong
    else
      let _ ← t.entry? part
      follow root (place ++ [part]) rest

/-- The place from which a path is followed. -/
def start (d : Disk) (path : String) : List String :=
  if path.toList.head? = some '/' then [] else d.here

/-- Refuse a path that is empty or too long as a whole. -/
def checkLength (path : String) : Except FileError Unit :=
  if path = "" then .error .notFound
  else if path.utf8ByteSize > longestPath then .error .nameTooLong
  else .ok ()

/-- Where a path leads. -/
def locate (d : Disk) (path : String) : Except FileError (List String) := do
  checkLength path
  follow d.root (d.start path) (Path.parts path)

/-- What stands at a path. -/
def at? (d : Disk) (path : String) : Except FileError FileTree := do
  d.root.get (← d.locate path)

/-- Write a file. Its folder has to be there; a file that is there is replaced. A path that ends
with a slash names a folder, which cannot be written, whether it is there or not. -/
def write (d : Disk) (path : String) (content : ByteArray) : Except FileError Disk := do
  checkLength path
  let parts := Path.parts path
  let named := (parts.reverse.dropWhile (· = "")).reverse
  let folder ← follow d.root (d.start path) named.dropLast
  let t ← d.root.get folder
  if !t.isFolder then
    throw .notFolder
  let name := named.getLast?.getD ""
  if Path.isHere name || name = ".." || named.length < parts.length then
    throw .isFolder
  if name.utf8ByteSize > longestName then
    throw .nameTooLong
  match t.entry? name with
  | .ok (.folder _) => throw .isFolder
  | _ => return { d with root := d.root.put name content folder }

end Disk

end Flowscript
