import Flowscript.LocatedError
import Flowscript.Text.Terminal
import Flowscript.Text.Width

/-!
# Diagnostics on a terminal

A diagnostic is shown with the source line it is about, the marked stretch underlined with carets,
and its notes below.

## Columns

Tabs are shown as blanks up to the next tab stop. Carets are put below the columns that the marked
characters take, not below the characters. Behind the last character of a line there is one more
place, so that the end of a line can be marked; line ends and zero characters at the end of a line
are not shown, and marks on them fall on that one place or nowhere.

## Colours

The shape is the same with and without colours: a coloured diagnostic is the plain one with terminal
codes in it.

## Main definitions

* `ShownLine`, `ShownLine.find` — the source line that holds a byte.
* `Cell`, `cells` — the characters of a line with their places.
* `Diagnostic.render` — the whole report.
-/

namespace Flowscript

/-! ### The line that is shown -/

/-- A line of a source, as a diagnostic shows it. -/
structure ShownLine where
  /-- The line's number, counted from 1. -/
  number : Nat
  /-- The byte at which the line starts. -/
  start : Nat
  /-- The line, with its terminator. -/
  text : List Char
deriving DecidableEq, Repr

namespace ShownLine

/-- Among the lines of a source, of which the first has number `number` and starts at byte `start`,
find the one that holds a byte. What lies behind the last line counts as being in it. -/
def search (byte number start : Nat) : List (List Char) → ShownLine
  | [] => ⟨number, start, []⟩
  | [last] => ⟨number, start, last⟩
  | line :: next :: rest =>
    if byte < start + byteLength line then ⟨number, start, line⟩
    else search byte (number + 1) (start + byteLength line) (next :: rest)

/-- The lines of a source. Behind a last line feed there is an empty line. -/
def linesOf (source : List Char) : List (List Char) :=
  rawLines source ++ (if source.getLast? = some '\n' then [[]] else [])

/-- The line of a source that holds a byte. -/
def find (source : String) (byte : Nat) : ShownLine := search byte 1 0 (linesOf source.toList)

/-- The characters that are shown: line ends and zero characters at the end are left out. -/
def shown (l : ShownLine) : List Char :=
  (l.text.reverse.dropWhile fun c => c = '\n' || c = '\r' || c = '\x00').reverse

end ShownLine

/-- How many of the characters end at or before a byte, counted from the first character's. -/
def charsBefore (byte : Nat) : List Char → Nat
  | [] => 0
  | c :: cs => if c.utf8Size ≤ byte then charsBefore (byte - c.utf8Size) cs + 1 else 0

/-! ### Cells -/

/-- The distance of tab stops. -/
def tabWidth : Nat := 4

/-- A character of a line with its place. -/
structure Cell where
  /-- The character. -/
  char : Char
  /-- The byte at which it starts, counted from the start of the line. -/
  byte : Nat
  /-- The number of columns it takes. -/
  width : Nat
deriving DecidableEq, Repr

/-- The cells of characters of which the first starts at a byte and in a column. -/
def cells (byte column : Nat) : List Char → List Cell
  | [] => []
  | c :: cs =>
    let width := if c = '\t' then tabWidth - column % tabWidth else charWidth c
    ⟨c, byte, width⟩ :: cells (byte + c.utf8Size) (column + width) cs

/-- Whether a cell lies in a stretch of its line. -/
def Cell.inSpan (c : Cell) (s : Span) : Bool :=
  max s.start c.byte < min s.stop (c.byte + c.char.utf8Size)

/-- What is shown of a cell in the source line. -/
def Cell.shown (c : Cell) : List Char :=
  if c.char = '\t' then List.replicate c.width ' ' else [c.char]

/-- What stands below a cell: carets if it is marked, blanks if marks may follow, nothing behind the
last mark. -/
def Cell.caret (c : Cell) (s : Span) : List Char :=
  if c.inSpan s then List.replicate c.width '^'
  else if c.byte < s.stop then List.replicate c.width ' '
  else []

/-! ### Colours -/

/-- Begin to show text in the way terminal codes say. -/
def beginStyle (codes : List String) : String := String.join (("0" :: codes).map terminalCode)

/-- Show a text in the way terminal codes say, if colours are on. -/
def styled (color : Bool) (codes : List String) (text : String) : String :=
  if color then beginStyle codes ++ text ++ terminalCode "0" else text

/-- The style of the frame around a source line. -/
def frameStyle : List String := ["36"]

/-- The style of a marked stretch. -/
def markStyle : List String := ["31"]

/-- Put pieces of text together, of which some are marked. With colours, every longest run of marked
pieces is styled as one. `inMark` says that the piece before was marked. -/
def joinMarked (color inMark : Bool) : List (Bool × List Char) → String
  | [] => if color && inMark then terminalCode "0" else ""
  | (marked, text) :: rest =>
    (if !color || marked == inMark then ""
      else if marked then beginStyle markStyle
      else terminalCode "0") ++
      String.ofList text ++ joinMarked color marked rest

/-! ### The whole report -/

namespace Diagnostic

/-- The stretch that is marked, counted from the start of a line. It takes at least one byte. -/
def markedSpan (d : Diagnostic) (line : ShownLine) : Span :=
  let start := d.span.start - line.start
  ⟨start, max (d.span.stop - line.start) (start + 1)⟩

/-- The source line, with the marked stretch. -/
def sourceText (color : Bool) (s : Span) (cs : List Cell) : String :=
  joinMarked color false (cs.map fun c => (c.inSpan s, c.shown))

/-- The carets below the source line. Behind the last cell there is a place of one column. -/
def caretText (color : Bool) (s : Span) (cs : List Cell) (lastByte : Nat) : String :=
  let places : List Cell := cs ++ [⟨'\x00', lastByte, 1⟩]
  joinMarked color false (places.map fun c => (c.inSpan s, c.caret s))

/-- The first line of a report. -/
def headline (color : Bool) (d : Diagnostic) : String :=
  if color then
    beginStyle ["1", "38;5;9"] ++ "error" ++ beginStyle ["1"] ++ ": " ++ d.message ++
      terminalCode "0" ++ "\n"
  else "error: " ++ d.message ++ "\n"

/-- The report on a stretch of a source, which is shown under a name. -/
def render (color : Bool) (name source : String) (d : Diagnostic) : String :=
  let line := ShownLine.find source d.span.start
  let column := charsBefore (d.span.start - line.start) line.text + 1
  let span := d.markedSpan line
  let cs := cells 0 0 line.shown
  let number := toString line.number
  let margin := String.ofList (List.replicate number.length ' ') ++ " "
  let frame := styled color frameStyle
  headline color d ++
    margin ++ frame "┌─" ++ " " ++ name ++ ":" ++ number ++ ":" ++ toString column ++ "\n" ++
    margin ++ frame "│" ++ "\n" ++
    frame number ++ " " ++ frame "│" ++ " " ++ sourceText color span cs ++ "\n" ++
    margin ++ frame "│" ++ " " ++ caretText color span cs (byteLength line.shown) ++ "\n" ++
    margin ++ frame "│" ++ "\n" ++
    String.join (d.notes.map fun note => margin ++ frame "=" ++ " " ++ note ++ "\n") ++ "\n"

end Diagnostic

end Flowscript
