/-!
# Why a statement is refused

`StatementError` names the causes; `message` words each of them, and `kind` sorts them into the
four categories that diagnostics report.

## Main definitions

* `Arity` — how many arguments a statement expects.
* `ErrorKind` — the four categories.
* `StatementError`, `StatementError.kind`, `StatementError.message`.
-/

namespace Flowscript

/-- How many arguments a statement expects. -/
inductive Arity where
  /-- This many and no other number. -/
  | exactly (n : Nat)
  /-- This many or more. -/
  | atLeast (n : Nat)
deriving DecidableEq, Repr

namespace Arity

/-- A count of arguments in words; one argument is singular. -/
def counted (n : Nat) : String := toString n ++ (if n = 1 then " argument" else " arguments")

/-- The expectation in words. -/
def text : Arity → String
  | .exactly n => counted n
  | .atLeast n => "at least " ++ counted n

end Arity

/-- The category of a `StatementError`. -/
inductive ErrorKind where
  /-- The number of arguments is wrong. -/
  | arity
  /-- The arguments are malformed. -/
  | shape
  /-- The statement does not fit the block structure. -/
  | structural
  /-- The leading word is no keyword. -/
  | vocabulary
deriving DecidableEq, Repr

/-- The category in words. -/
def ErrorKind.text : ErrorKind → String
  | .arity => "arity error"
  | .shape => "malformed statement"
  | .structural => "structural error"
  | .vocabulary => "unknown vocabulary"

/-- Why a statement, or the end of a source, is refused. -/
inductive StatementError where
  /-- The statement has `found` arguments where it expects another number. -/
  | argumentCount (keyword : String) (expected : Arity) (found : Nat)
  /-- The statement needs an expression and has none. -/
  | missingExpression (keyword : String)
  /-- An `else` is followed by something other than `if`. -/
  | elseArguments (found : Nat)
  /-- A parameter list is not a parenthesised list of names and types. -/
  | malformedParameters (function : String)
  /-- A word that separates two expressions is missing, or nothing follows it. -/
  | missingDelimiter (keyword delimiter : String)
  /-- A function is declared inside a block. -/
  | nestedFunction (name : String)
  /-- An `else` does not continue a conditional. -/
  | elseWithoutIf
  /-- An `end` closes nothing. -/
  | unexpectedEnd
  /-- The source ends while blocks are open. -/
  | unclosedBlocks (innermost : String) (openCount : Nat)
  /-- A statement stands outside every block. -/
  | outsideFunction (word : String)
  /-- A statement has no tokens. -/
  | emptyStatement
  /-- The leading word is no keyword. -/
  | unknownCommand (word : String)
deriving DecidableEq, Repr

namespace StatementError

/-- The category of an error. -/
def kind : StatementError → ErrorKind
  | .argumentCount .. | .missingExpression _ | .elseArguments _ => .arity
  | .malformedParameters _ | .missingDelimiter .. => .shape
  | .nestedFunction _ | .elseWithoutIf | .unexpectedEnd | .unclosedBlocks .. | .outsideFunction _
  | .emptyStatement => .structural
  | .unknownCommand _ => .vocabulary

/-- Words are shown between double quotes, as they are. -/
def quote (word : String) : String := "\"" ++ word ++ "\""

/-- The message of an error. -/
def message : StatementError → String
  | .argumentCount keyword expected found =>
    quote keyword ++ " expects " ++ expected.text ++ " (found " ++ toString found ++ ")"
  | .missingExpression keyword => quote keyword ++ " expects expression"
  | .elseArguments found =>
    quote "else" ++ " expects 0 arguments or " ++ quote "if" ++ " (found " ++ toString found ++ ")"
  | .malformedParameters function =>
    "function " ++ quote function ++ " has wrong arguments format"
  | .missingDelimiter keyword delimiter =>
    quote keyword ++ " expects expression " ++ quote delimiter
  | .nestedFunction name => "function " ++ quote name ++ " is nestedly declared"
  | .elseWithoutIf => quote "else" ++ " must be preceded by an if"
  | .unexpectedEnd => "unexpected end of statement"
  | .unclosedBlocks innermost _ =>
    "not closed statement: " ++ quote innermost ++ " is missing its " ++ quote "end"
  | .outsideFunction word => "statement " ++ quote word ++ " is not allowed outside of function"
  | .emptyStatement => "empty statement"
  | .unknownCommand word => "unknown command " ++ quote word

end StatementError

end Flowscript
