/-!
# Lines of a source

A source is cut after every line feed; a last stretch without one is a line too. A line's text
leaves out its terminator: the line feed, and one carriage return before it. A carriage return at
the very end of a source is left out in the same way.

Positions are counted in bytes of the source's UTF-8 encoding, so that a span can be handed to any
tool that reads the source.

## Main definitions

* `Span` — a stretch of a source.
* `rawLines` — a source, cut after every line feed.
* `SourceLine`, `sourceLines` — the numbered lines of a source.

## Main results

* `byteLength_toList` — lengths are counted as for the text itself.
* `flatten_rawLines` — cutting loses nothing.
-/

namespace Flowscript

/-- A stretch of a source, from byte `start` up to and without byte `stop`. -/
structure Span where
  /-- The first byte. -/
  start : Nat
  /-- The byte after the last one. -/
  stop : Nat
deriving DecidableEq, Repr

/-- The number of bytes that characters take. -/
def byteLength (cs : List Char) : Nat := cs.foldr (fun c n => c.utf8Size + n) 0

@[simp] theorem byteLength_nil : byteLength [] = 0 := rfl

@[simp] theorem byteLength_cons (c : Char) (cs : List Char) :
    byteLength (c :: cs) = c.utf8Size + byteLength cs := rfl

@[simp] theorem byteLength_append (cs ds : List Char) :
    byteLength (cs ++ ds) = byteLength cs + byteLength ds := by
  induction cs with
  | nil => simp
  | cons c cs ih => simp [ih, Nat.add_assoc]

theorem byteLength_eq_utf8ByteSize (cs : List Char) :
    byteLength cs = (String.ofList cs).utf8ByteSize := by
  induction cs with
  | nil => rfl
  | cons c cs ih =>
    rw [byteLength_cons, ih, ← List.singleton_append, String.ofList_append,
      String.utf8ByteSize_append]
    simp

/-- The bytes of a text are the bytes of its characters. -/
@[simp] theorem byteLength_toList (s : String) : byteLength s.toList = s.utf8ByteSize := by
  rw [byteLength_eq_utf8ByteSize, String.ofList_toList]

/-- Put a character before lines: it begins the first of them, or is a line of its own if it is a
line feed. -/
def consLine (c : Char) : List (List Char) → List (List Char)
  | [] => [[c]]
  | line :: rest => if c = '\n' then [c] :: line :: rest else (c :: line) :: rest

/-- Cut a text after every line feed. -/
def rawLines (cs : List Char) : List (List Char) := cs.foldr consLine []

@[simp] theorem rawLines_nil : rawLines [] = [] := rfl

@[simp] theorem rawLines_cons (c : Char) (cs : List Char) :
    rawLines (c :: cs) = consLine c (rawLines cs) := rfl

theorem flatten_consLine (c : Char) (lines : List (List Char)) :
    (consLine c lines).flatten = c :: lines.flatten := by
  cases lines with
  | nil => rfl
  | cons line rest => by_cases h : c = '\n' <;> simp [consLine, h]

/-- Nothing is lost: the lines put together are the text. -/
@[simp] theorem flatten_rawLines (cs : List Char) : (rawLines cs).flatten = cs := by
  induction cs with
  | nil => rfl
  | cons c cs ih => rw [rawLines_cons, flatten_consLine, ih]

/-- Leave out the last character of a text if it is `c`. -/
def dropLastIf (c : Char) (cs : List Char) : List Char :=
  if cs.getLast? = some c then cs.dropLast else cs

/-- The text of a raw line, without its terminator. -/
def lineText (raw : List Char) : List Char := dropLastIf '\r' (dropLastIf '\n' raw)

/-- A line of a source. -/
structure SourceLine where
  /-- The line's number, counted from 1. -/
  number : Nat
  /-- Where the line's text stands in the source. -/
  span : Span
  /-- The line's text, without its terminator. -/
  text : String
deriving DecidableEq, Repr

/-- Number raw lines, the first of which has number `number` and starts at byte `offset`. -/
def numberLines (number offset : Nat) : List (List Char) → List SourceLine
  | [] => []
  | raw :: rest =>
    ⟨number, ⟨offset, offset + byteLength (lineText raw)⟩, String.ofList (lineText raw)⟩ ::
      numberLines (number + 1) (offset + byteLength raw) rest

/-- The lines of a source. -/
def sourceLines (source : String) : List SourceLine :=
  numberLines 1 0 (rawLines source.toList)

/-- The texts of the lines of a text, cut at line feeds, with one carriage return before each line
feed left out. Unlike in a source line, a carriage return at the very end is kept. -/
def textLines (s : String) : List String :=
  (rawLines s.toList).map fun raw =>
    String.ofList (if raw.getLast? = some '\n' then lineText raw else raw)

end Flowscript
