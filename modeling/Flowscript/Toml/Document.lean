import Flowscript.Toml.Scalar
import Flowscript.Toml.Text

/-!
# Reading a settings document

A document is a sequence of lines: comments, table headers, and keys with their values. It is read
from left to right, and the first line that does not fit ends the reading.

## Recursion

Lists and tables nest, but only so deep: `value?` recurses on the depth that is left. The loops
over the items of a list, the parts of a key and the lines of a document recurse on the length of
the text that is left, which they check before they go on.

## Main definitions

* `value?` — a value.
* `keyPath?` — a dotted key.
* `parse?` — the entries of a document.
-/

namespace Flowscript.Toml

/-- Skip blanks. -/
def skipBlanks (cs : List Char) : List Char := cs.dropWhile isBlank

/-- How deep lists and tables may nest, and how many parts a dotted key may have. -/
def depthLimit : Nat := 79

/-! ### Keys -/

/-- The characters of a key without quotes. -/
def isBareKeyChar (c : Char) : Bool := c.isAlphanum || c = '-' || c = '_'

/-- One part of a key: bare, or a string on one line. -/
def keyPart? : List Char → Read String
  | '"' :: rest => (basicBody rest).map fun (t, after) => (String.ofList t, after)
  | '\'' :: rest => (literalBody rest).map fun (t, after) => (String.ofList t, after)
  | cs =>
    let (word, rest) := cs.span isBareKeyChar
    if word.isEmpty then none else some (String.ofList word, rest)

/-- The parts of a dotted key, with blanks around each of them. -/
def keyParts? (cs : List Char) : Read (List String) :=
  match keyPart? (skipBlanks cs) with
  | none => none
  | some (part, rest) =>
    match skipBlanks rest with
    | '.' :: more =>
      if more.length < cs.length then
        (keyParts? more).map fun (parts, after) => (part :: parts, after)
      else none
    | after => some ([part], after)
termination_by cs.length

/-- A dotted key with a bounded number of parts. -/
def keyPath? (cs : List Char) : Read (List String) :=
  (keyParts? cs).filter fun (parts, _) => parts.length ≤ depthLimit

/-! ### Values -/

/-- Skip blanks, line ends and comments, as they may stand between the items of a list.
`inComment` says that the reader stands in a comment, which a line end has to close. -/
def skipFiller (inComment : Bool) : List Char → Option (List Char)
  | [] => if inComment then none else some []
  | c :: rest =>
    if c = '\n' then skipFiller false rest
    else if c = '\r' then
      match rest with
      | '\n' :: rest' => skipFiller false rest'
      | _ => none
    else if inComment then if isTextChar c then skipFiller true rest else none
    else if c = '#' then skipFiller true rest
    else if isBlank c then skipFiller false rest
    else some (c :: rest)

/-- The items of a list, up to its closing bracket. A comma may follow the last one. -/
def arrayItems? (item : List Char → Read Value) (cs : List Char) : Read (List Value) :=
  match skipFiller false cs with
  | none => none
  | some (']' :: after) => some ([], after)
  | some start =>
    match item start with
    | none => none
    | some (v, rest) =>
      match skipFiller false rest with
      | some (']' :: after) => some ([v], after)
      | some (',' :: more) =>
        if more.length < cs.length then
          (arrayItems? item more).map fun (vs, after) => (v :: vs, after)
        else none
      | _ => none
termination_by cs.length

/-- A key, an equals sign and a value. -/
def keyValue? (item : List Char → Read Value) (cs : List Char) : Read (List String × Value) :=
  match keyPath? cs with
  | some (key, '=' :: rest) =>
    (item (skipBlanks rest)).map fun (v, after) => ((key, v), after)
  | _ => none

/-- The entries of a table between braces, up to its closing brace and after the entries in `es`.
No comma may follow the last one. -/
def inlineEntries? (item : List Char → Read Value) (es : Entries) (cs : List Char) :
    Read Entries :=
  match keyValue? item cs with
  | none => none
  | some ((key, v), rest) =>
    match es.insert? key v with
    | none => none
    | some es' =>
      match skipBlanks rest with
      | '}' :: after => some (es', after)
      | ',' :: more =>
        if more.length < cs.length then inlineEntries? item es' more else none
      | _ => none
termination_by cs.length

/-- A value in which lists and tables nest at most `depth` deep. -/
def value? : (depth : Nat) → List Char → Read Value
  | _, '"' :: rest => (string? ('"' :: rest)).map fun (s, after) => (.string s, after)
  | _, '\'' :: rest => (string? ('\'' :: rest)).map fun (s, after) => (.string s, after)
  | depth + 1, '[' :: rest =>
    (arrayItems? (value? depth) rest).map fun (vs, after) => (.array vs, after)
  | depth + 1, '{' :: rest =>
    match skipBlanks rest with
    | '}' :: after => some (.table .braces [], after)
    | start =>
      (inlineEntries? (value? depth) [] start).map fun (es, after) => (.table .braces es, after)
  | _, cs => readScalar cs

/-! ### Documents -/

/-- The rest of a line behind a header or a value: blanks, perhaps a comment, and the line's end or
the document's. -/
def lineRest? (cs : List Char) : Option (List Char) :=
  let rest := match skipBlanks cs with
    | '#' :: comment => comment.dropWhile isTextChar
    | rest => rest
  if rest.isEmpty then some [] else newline? rest

/-- A line of a document. -/
inductive Line where
  /-- Nothing, or a comment. -/
  | blank
  /-- A header that opens a table. -/
  | tableHeader (path : List String)
  /-- A header that opens one more table of a list. -/
  | elementHeader (path : List String)
  /-- A key with its value. -/
  | entry (key : List String) (v : Value)

/-- Read the line at the head of a text that is not empty. -/
def line? (cs : List Char) : Read Line :=
  match cs with
  | '[' :: '[' :: rest =>
    match keyPath? rest with
    | some (path, ']' :: ']' :: after) => (lineRest? after).map (.elementHeader path, ·)
    | _ => none
  | '[' :: rest =>
    match keyPath? rest with
    | some (path, ']' :: after) => (lineRest? after).map (.tableHeader path, ·)
    | _ => none
  | _ =>
    match lineRest? cs with
    | some after => some (.blank, after)
    | none =>
      match keyValue? (value? depthLimit) cs with
      | some ((key, v), rest) => (lineRest? rest).map (.entry key v, ·)
      | none => none

/-- Read the lines of a document in order. `header` is the last header, and `es` holds what was
defined so far. -/
def readLines? (header : List String) (es : Entries) (cs : List Char) : Option Entries :=
  match skipBlanks cs with
  | [] => some es
  | start =>
    match line? start with
    | none => none
    | some (line, rest) =>
      let next? : Option (List String × Entries) :=
        match line with
        | .blank => some (header, es)
        | .tableHeader path => (es.openTable? path).map (path, ·)
        | .elementHeader path => (es.openElement? path).map (path, ·)
        | .entry key v => (es.insertUnder? header key v).map (header, ·)
      match next? with
      | none => none
      | some (header', es') =>
        if rest.length < cs.length then readLines? header' es' rest else none
termination_by cs.length

/-- The entries of a document. A byte order mark at its head is skipped. -/
def parse? (text : String) : Option Entries :=
  match text.toList with
  | '\ufeff' :: rest => readLines? [] [] rest
  | cs => readLines? [] [] cs

end Flowscript.Toml
