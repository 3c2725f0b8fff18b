/-!
# Values of a settings document

Settings files are written in TOML. This module holds what such a document says, and the rules by
which keys and table headers build it up.

## How a table came about

Whether a table may still grow depends on how it came about (`Origin`). A table written between
braces is closed. A table under a header is defined once, but may be passed through by the headers
of its subtables. A table that a dotted key made grows by dotted keys only, and one that a longer
header implied may still get a header of its own.

## Main definitions

* `Value`, `Origin`, `Entries`.
* `Entries.insert?` — define a possibly dotted key.
* `Entries.openTable?`, `Entries.openElement?` — the effect of the two kinds of header.
* `Entries.insertUnder?` — define a key in the table that a header opened.
-/

namespace Flowscript.Toml

/-- How a table came about. -/
inductive Origin where
  /-- Written between braces. -/
  | braces
  /-- Made by a dotted key. -/
  | dotted
  /-- Implied by the header of a table inside it. -/
  | implied
  /-- Opened by a header of its own. -/
  | header
deriving DecidableEq, Repr

/-- A value of a document. Numbers with a fraction or an exponent are kept as they are spelt, and of
dates and times only the spelling is kept, for no setting is one of them. -/
inductive Value where
  | string (text : String)
  | integer (n : Int)
  | float (spelling : String)
  | boolean (b : Bool)
  | dateTime (spelling : String)
  /-- Values between brackets. -/
  | array (items : List Value)
  /-- Tables that headers in double brackets opened, the last one first. -/
  | elements (last : List (String × Value)) (earlier : List (List (String × Value)))
  | table (origin : Origin) (entries : List (String × Value))

/-- The entries of a table, in the order of their definition. -/
abbrev Entries := List (String × Value)

namespace Entries

/-- Put another value in the place of a key's value. -/
def replace (key : String) (v : Value) (es : Entries) : Entries :=
  es.map fun (k, old) => if k == key then (k, v) else (k, old)

/-- Define a dotted key, given by its parts. Parts before the last one lead through tables, which
are made on the way; a table that was not made by a dotted key is not defined into, and one that
cannot grow is not passed through. A key that has a value is not defined again. -/
def insert? : List String → Value → Entries → Option Entries
  | [], _, _ => none
  | [key], v, es => if (es.lookup key).isSome then none else some (es ++ [(key, v)])
  | key :: next :: rest, v, es =>
    match es.lookup key with
    | none => (insert? (next :: rest) v []).map fun sub => es ++ [(key, .table .dotted sub)]
    | some (.table .dotted sub) =>
      (insert? (next :: rest) v sub).map fun sub' => es.replace key (.table .dotted sub')
    | some (.table .implied sub) =>
      if rest.isEmpty then none
      else (insert? (next :: rest) v sub).map fun sub' => es.replace key (.table .implied sub')
    | some (.elements last earlier) =>
      if rest.isEmpty then none
      else (insert? (next :: rest) v last).map fun last' => es.replace key (.elements last' earlier)
    | some _ => none

/-- Lead through the tables that the parts of a header name before its last part, and apply `f` to
the entries found there and to the last part. Missing tables are implied. -/
def underHeader? (f : String → Entries → Option Entries) : List String → Entries → Option Entries
  | [], _ => none
  | [key], es => f key es
  | key :: next :: rest, es =>
    match es.lookup key with
    | none =>
      (underHeader? f (next :: rest) []).map fun sub => es ++ [(key, .table .implied sub)]
    | some (.table .braces _) => none
    | some (.table origin sub) =>
      (underHeader? f (next :: rest) sub).map fun sub' => es.replace key (.table origin sub')
    | some (.elements last earlier) =>
      (underHeader? f (next :: rest) last).map fun last' =>
        es.replace key (.elements last' earlier)
    | some _ => none

/-- Open the table that a header names: a new one, or one that was only implied so far. -/
def openTable? : List String → Entries → Option Entries :=
  underHeader? fun key es =>
    match es.lookup key with
    | none => some (es ++ [(key, .table .header [])])
    | some (.table .implied sub) => some (es.replace key (.table .header sub))
    | some _ => none

/-- Open one more table in the list that a header in double brackets names. -/
def openElement? : List String → Entries → Option Entries :=
  underHeader? fun key es =>
    match es.lookup key with
    | none => some (es ++ [(key, .elements [] [])])
    | some (.elements last earlier) => some (es.replace key (.elements [] (last :: earlier)))
    | some _ => none

/-- Define a dotted key in the table that a header opened; no header means the whole document. -/
def insertUnder? (header key : List String) (v : Value) (es : Entries) : Option Entries :=
  if header.isEmpty then es.insert? key v
  else
    underHeader?
      (fun last es =>
        match es.lookup last with
        | some (.table origin sub) =>
          (insert? key v sub).map fun sub' => es.replace last (.table origin sub')
        | some (.elements current earlier) =>
          (insert? key v current).map fun current' => es.replace last (.elements current' earlier)
        | _ => none)
      header es

end Entries

end Flowscript.Toml
