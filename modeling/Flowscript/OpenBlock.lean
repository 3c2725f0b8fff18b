import Flowscript.Markup

/-!
# Blocks that wait for their `end`

Functions, conditionals and loops are opened by one statement and closed by a later `end`. Between
the two, an `OpenBlock` remembers what the `end` has to write.

## Chains

An `else if` is written as a conditional inside the `else` branch of the one before it, but the
whole chain is closed by a single `end`. A conditional therefore counts the `else` branches it was
chained through, and its closing markup closes each of them in turn.

## Main definitions

* `OpenBlock` — the kinds of block.
* `OpenBlock.closing` — the markup its `end` writes.
* `OpenBlock.name` — what messages call it.
-/

namespace Flowscript

open Markup

/-- A block still waiting for its `end`. -/
inductive OpenBlock where
  /-- A function body. -/
  | function
  /-- A conditional whose `else` branch has not been opened. `chained` counts the `else` branches
  around it that its `end` also closes. -/
  | ifPendingElse (chained : Nat)
  /-- A conditional whose `else` branch is open, with the same count. -/
  | ifResolved (chained : Nat)
  /-- A loop tested before its body. -/
  | whileLoop
  /-- A loop tested after its body. -/
  | doLoop
  /-- A counting loop. -/
  | forLoop
deriving DecidableEq, Repr

namespace OpenBlock

/-- The markup that closes one `else` branch together with its conditional. -/
def closeElse : String := endTag "else" ++ endTag "if"

/-- The markup that closes a block. A conditional without an `else` branch gets an empty one. -/
def closing : OpenBlock → String
  | .function => endTag "body" ++ endTag "function"
  | .ifPendingElse chained =>
    endTag "then" ++ emptyTag "else" [] ++ endTag "if" ++
      String.join (List.replicate chained closeElse)
  | .ifResolved chained => closeElse ++ String.join (List.replicate chained closeElse)
  | .whileLoop => endTag "while"
  | .doLoop => endTag "do"
  | .forLoop => endTag "for"

/-- What messages call a block. -/
def name : OpenBlock → String
  | .function => "function"
  | .ifPendingElse _ | .ifResolved _ => "if"
  | .whileLoop => "while"
  | .doLoop => "do"
  | .forLoop => "for"

end OpenBlock

end Flowscript
