/-!
# Statement keywords

The first token of a statement names what it does. The vocabulary is closed: any other word is
no keyword.

## Main definitions

* `Keyword` — the fourteen statements.
* `Keyword.word` and `Keyword.ofWord?` — the spelling of a keyword, and its inverse.
* `Keyword.allowedAtTopLevel` — the statements that need no open block.

## Main results

* `Keyword.ofWord?_word`, `Keyword.word_of_ofWord?_eq_some` — a word spells exactly the keyword it
  is the spelling of.
-/

namespace Flowscript

/-- The leading word of a statement. -/
inductive Keyword where
  /-- Opens a function. -/
  | function
  /-- Opens a conditional. -/
  | ifThen
  /-- Turns to the other branch of a conditional. -/
  | otherwise
  /-- Opens a loop tested before its body. -/
  | whileLoop
  /-- Opens a loop tested after its body. -/
  | doLoop
  /-- Opens a counting loop. -/
  | forLoop
  /-- Closes the innermost open block. -/
  | close
  /-- Declares variables of one type. -/
  | declare
  /-- Assigns to a variable. -/
  | assign
  /-- Calls a function for its effect. -/
  | call
  /-- Writes, and stays on the line. -/
  | print
  /-- Writes, and ends the line. -/
  | println
  /-- Reads a variable. -/
  | scan
  /-- Says something to the reader. -/
  | comment
deriving DecidableEq, Repr

namespace Keyword

/-- Every keyword, in the order in which the statements are usually listed. -/
def all : List Keyword :=
  [.function, .ifThen, .otherwise, .whileLoop, .doLoop, .forLoop, .close, .declare, .assign, .call,
    .print, .println, .scan, .comment]

/-- The spelling of a keyword. A comment is introduced by `#`. -/
def word : Keyword → String
  | .function => "fn"
  | .ifThen => "if"
  | .otherwise => "else"
  | .whileLoop => "while"
  | .doLoop => "do"
  | .forLoop => "for"
  | .close => "end"
  | .declare => "var"
  | .assign => "set"
  | .call => "call"
  | .print => "print"
  | .println => "println"
  | .scan => "scan"
  | .comment => "#"

/-- The keyword a word spells, if it spells one. Case matters. -/
def ofWord? (w : String) : Option Keyword := all.find? (·.word == w)

/-- Whether the statement may stand outside every block. A function opens the outermost block, and
a comment may stand anywhere. -/
def allowedAtTopLevel : Keyword → Bool
  | .function | .comment => true
  | _ => false

/-- The spelling of a keyword determines it. -/
@[simp] theorem ofWord?_word (k : Keyword) : ofWord? k.word = some k := by
  cases k <;> decide

theorem word_injective {k k' : Keyword} (h : k.word = k'.word) : k = k' := by
  rw [← Option.some.injEq, ← ofWord?_word k, ← ofWord?_word k', h]

/-- A word is read as a keyword only if it is that keyword's spelling. -/
theorem word_of_ofWord?_eq_some {w : String} {k : Keyword} (h : ofWord? w = some k) :
    k.word = w := by
  simpa using List.find?_some h

end Keyword

end Flowscript
