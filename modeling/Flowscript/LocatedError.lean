import Flowscript.StatementError
import Flowscript.Text.Lines

/-!
# Errors with their place in a source

## Main definitions

* `LocatedError` — a statement error together with where it was found.
* `LocatedError.text` — the error on one line.
* `Diagnostic`, `LocatedError.diagnostic` — the error as a diagnostic printer takes it.
-/

namespace Flowscript

/-- A statement error and where it was found. -/
structure LocatedError where
  /-- The cause. -/
  error : StatementError
  /-- The line's number, counted from 1. -/
  line : Nat
  /-- The offending stretch of the source. -/
  span : Span
  /-- The source, if there are several. -/
  file : Nat
deriving DecidableEq, Repr

/-- A report about a stretch of a source. -/
structure Diagnostic where
  /-- What is wrong. -/
  message : String
  /-- The source that is shown. -/
  file : Nat
  /-- The stretch that is marked. -/
  span : Span
  /-- Remarks below the source, in order. -/
  notes : List String
deriving DecidableEq, Repr

namespace LocatedError

/-- The error on one line. -/
def text (e : LocatedError) : String := "line " ++ toString e.line ++ ": " ++ e.error.message

/-- The remarks on an error: its category and line and, if the source ended too early, how much of
it is missing. -/
def notes (e : LocatedError) : List String :=
  (e.error.kind.text ++ " on line " ++ toString e.line) ::
    match e.error with
    | .unclosedBlocks _ count => [toString count ++ " block(s) still open at end of input"]
    | _ => []

/-- The error as a report. -/
def diagnostic (e : LocatedError) : Diagnostic := ⟨e.error.message, e.file, e.span, e.notes⟩

end LocatedError

end Flowscript
