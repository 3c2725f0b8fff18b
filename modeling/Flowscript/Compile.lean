import Flowscript.LocatedError
import Flowscript.Statement

/-!
# From a source to a document

The statements of a source are carried out line by line on a fresh draft, lines without tokens
being skipped. The first refused statement ends the run; so do blocks left open at the end.

## Main definitions

* `statementLines` — the lines of a source that hold a statement.
* `runLines` — a run of such lines.
* `compile` — the document of a source.
-/

namespace Flowscript

/-- The lines of a source that have tokens, each with its tokens. -/
def statementLines (source : String) : List (SourceLine × List Token) :=
  ((sourceLines source).map fun line => (line, tokenize line.text)).filter (·.2 ≠ [])

/-- The tokens of every line that has any, with the line's number. -/
def tokenizeSource (source : String) : List (Nat × List Token) :=
  (statementLines source).map fun (line, tokens) => (line.number, tokens)

/-- Carry out statements in order, up to the first one that is refused. -/
def runLines (file : Nat) (d : Draft) :
    List (SourceLine × List Token) → Except LocatedError Draft
  | [] => .ok d
  | (line, tokens) :: rest =>
    match (process tokens).apply d with
    | (.ok (), d') => runLines file d' rest
    | (.error e, _) => .error ⟨e, line.number, line.span, file⟩

/-- The place just behind a source, where blocks left open are reported. -/
def endOfSource (source : String) : Span :=
  ⟨byteLength source.toList, byteLength source.toList⟩

/-- The document of a source, or the first error in it. `file` only labels errors. -/
def compile (source : String) (file : Nat) (options : Options) : Except LocatedError String :=
  match runLines file (.new options) (statementLines source) with
  | .error e => .error e
  | .ok d =>
    match d.finish with
    | .ok document => .ok document
    | .error e => .error ⟨e, (sourceLines source).length, endOfSource source, file⟩

end Flowscript
