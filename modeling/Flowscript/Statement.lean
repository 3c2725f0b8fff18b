import Flowscript.Draft
import Flowscript.Keyword
import Flowscript.Token

/-!
# Statements

One definition per statement says which arguments it accepts, what it writes and which block it
opens or closes; `process` picks the definition by the leading word.

Every statement checks before it writes, and the checks are ordered: a source with two faults in
one line is told the first of them in the order of these definitions.

## Main definitions

* `Statement.parameterPairs?` — the names and types of a parameter list.
* `Statement.splitAt?` — an argument list, cut at the first occurrence of a word.
* `Statement.function`, `Statement.ifThen`, … — the statements.
* `process` — a statement given by its tokens.
-/

namespace Flowscript

open Markup Step

namespace Statement

/-! ### Checks -/

/-- Refuse a statement for the number of its arguments. -/
def refuseCount {α : Type} (keyword : Keyword) (expected : Arity) (args : List Token) : Step α :=
  throw (.argumentCount keyword.word expected args.length)

/-- Require at least `n` arguments. -/
def requireCount (keyword : Keyword) (n : Nat) (args : List Token) : Step Unit :=
  if args.length < n then refuseCount keyword (.atLeast n) args else pure ()

/-- Require an expression: at least one token. -/
def requireExpression (keyword : Keyword) (args : List Token) : Step Unit :=
  if args.isEmpty then throw (.missingExpression keyword.word) else pure ()

/-! ### Functions -/

/-- Strip the parentheses a text begins and ends with. -/
def unparenthesized? (s : String) : Option String :=
  match s.toList with
  | '(' :: rest => if rest.getLast? = some ')' then some (String.ofList rest.dropLast) else none
  | _ => none

/-- Group a list into pairs of neighbours; `none` if one element is left over. -/
def pairUp? {α : Type} : List α → Option (List (α × α))
  | [] => some []
  | [_] => none
  | a :: b :: rest => (pairUp? rest).map ((a, b) :: ·)

/-- The parameters of a function, as pairs of a name and a type. -/
def parameterPairs? (list : Token) : Option (List (Token × Token)) := do
  pairUp? (tokenize (← unparenthesized? list))

/-- The markup of a parameter list; an empty list is one tag. -/
def parameterMarkup : List (Token × Token) → String
  | [] => emptyTag "parameters" []
  | pairs =>
    startTag "parameters" [] ++
      String.join (pairs.map fun (name, type) =>
        emptyTag "parameter" [⟨"name", name⟩, ⟨"type", type⟩, ⟨"array", "False"⟩]) ++
      endTag "parameters"

/-- The word that stands for "no result". -/
def noResult : Token := "_"

/-- The markup that opens a function. -/
def functionMarkup (name result type : Token) (parameters : List (Token × Token)) : String :=
  startTag "function"
      [⟨"name", name⟩, ⟨"type", type⟩,
        ⟨"variable", if result = noResult then "" else result⟩] ++
    parameterMarkup parameters ++ startTag "body" []

/-- `fn NAME (PARAMETERS) RESULT TYPE` opens a function, outside every block. -/
def function : List Token → Step Unit
  | [name, parameters, result, type] => do
    if !(← get).atTopLevel then
      throw (.nestedFunction name)
    match parameterPairs? parameters with
    | none => throw (.malformedParameters name)
    | some pairs =>
      write (functionMarkup name result type pairs)
      push .function
  | args => refuseCount .function (.exactly 4) args

/-! ### Conditionals -/

/-- The markup that opens a conditional and its first branch. -/
def ifMarkup (condition : List Token) : String :=
  startTag "if" [⟨"expression", expression condition⟩] ++ startTag "then" []

/-- The markup between the two branches of a conditional. -/
def elseMarkup : String := endTag "then" ++ startTag "else" []

/-- `if CONDITION` opens a conditional. -/
def ifThen (condition : List Token) : Step Unit := do
  requireExpression .ifThen condition
  write (ifMarkup condition)
  push (.ifPendingElse 0)

/-- `else` opens the other branch of the innermost block, which must be a conditional that has not
opened it yet; `else if CONDITION` also opens a conditional there, chained to the first. -/
def otherwise (args : List Token) : Step Unit := do
  match (← get).blocks.head? with
  | some (.ifPendingElse chained) =>
    match args with
    | [] =>
      write elseMarkup
      replaceTop (.ifResolved chained)
    | first :: condition =>
      if first = Keyword.ifThen.word then
        requireExpression .ifThen condition
        write elseMarkup
        write (ifMarkup condition)
        replaceTop (.ifPendingElse (chained + 1))
      else
        throw (.elseArguments args.length)
  | _ => throw .elseWithoutIf

/-! ### Loops -/

/-- `while CONDITION` opens a loop tested before its body. -/
def whileLoop (condition : List Token) : Step Unit := do
  requireExpression .whileLoop condition
  write (startTag "while" [⟨"expression", expression condition⟩])
  push .whileLoop

/-- `do CONDITION` opens a loop tested after its body. -/
def doLoop (condition : List Token) : Step Unit := do
  requireExpression .doLoop condition
  write (startTag "do" [⟨"expression", expression condition⟩])
  push .doLoop

/-- Cut a list of tokens at the first occurrence of a word: what stands before it, and what stands
after it, of which there must be something. -/
def splitAt? (word : Token) (tokens : List Token) : Option (List Token × List Token) :=
  match tokens.span (· ≠ word) with
  | (before, _ :: next :: after) => some (before, next :: after)
  | _ => none

/-- The head of a counting loop. -/
structure ForHead where
  /-- The counter. -/
  counter : Token
  /-- The counter runs downwards. -/
  backward : Bool
  /-- Where the counter starts. -/
  start : List Token
  /-- Where the counter stops. -/
  stop : List Token
  /-- By how much the counter changes. -/
  step : List Token
deriving DecidableEq, Repr

/-- The fewest arguments a counting loop can have. -/
def ForHead.leastArguments : Nat := 7

/-- A word that a counting loop lacks. -/
def missingWord (delimiter : String) : StatementError :=
  .missingDelimiter Keyword.forLoop.word delimiter

/-- Set the word that reverses a counting loop apart from the rest of its arguments. -/
def leadingBackward : List Token → Bool × List Token
  | "backward" :: rest => (true, rest)
  | args => (false, args)

/-- Read the head of a counting loop, `[backward] COUNTER from START to STOP step STEP`. Only the
arguments as a whole are counted, so an expression between two of the words may be empty. -/
def ForHead.ofTokens (args : List Token) : Except StatementError ForHead :=
  if args.length < leastArguments then
    .error (.argumentCount Keyword.forLoop.word (.atLeast leastArguments) args.length)
  else
    match leadingBackward args with
    | (backward, counter :: "from" :: bounds) =>
      match splitAt? "to" bounds with
      | none => .error (missingWord "to")
      | some (start, rest) =>
        match splitAt? "step" rest with
        | none => .error (missingWord "step")
        | some (stop, step) => .ok ⟨counter, backward, start, stop, step⟩
    | _ => .error (missingWord "from")

/-- The markup that opens a counting loop. -/
def ForHead.markup (h : ForHead) : String :=
  startTag "for"
    [⟨"variable", h.counter⟩, ⟨"start", expression h.start⟩, ⟨"end", expression h.stop⟩,
      ⟨"direction", if h.backward then "dec" else "inc"⟩, ⟨"step", expression h.step⟩]

/-- `for HEAD` opens a counting loop. -/
def forLoop (args : List Token) : Step Unit := do
  match ForHead.ofTokens args with
  | .error e => throw e
  | .ok head =>
    write head.markup
    push .forLoop

/-! ### Closing a block -/

/-- `end` closes the innermost block. -/
def close (args : List Token) : Step Unit := do
  if !args.isEmpty then
    refuseCount .close (.exactly 0) args
  match ← pop with
  | some block => write block.closing
  | none => if !(← get).options.unmatchedEnd then throw .unexpectedEnd

/-! ### Simple statements -/

/-- `var NAME … TYPE` declares variables. -/
def declare (args : List Token) : Step Unit := do
  requireCount .declare 2 args
  write (emptyTag "declare"
    [⟨"name", String.intercalate ", " args.dropLast⟩, ⟨"type", args.getLast?.getD ""⟩,
      ⟨"array", "False"⟩, ⟨"size", ""⟩])

/-- `set VARIABLE VALUE` assigns. -/
def assign : List Token → Step Unit
  | target :: token :: rest =>
    write (emptyTag "assign"
      [⟨"variable", target⟩, ⟨"expression", expression (token :: rest)⟩])
  | args => refuseCount .assign (.atLeast 2) args

/-- `call EXPRESSION` calls a function. -/
def call (args : List Token) : Step Unit := do
  requireCount .call 1 args
  write (emptyTag "call" [⟨"expression", expression args⟩])

/-- `print` and `println` write their arguments; `newline` tells them apart. -/
def output (keyword : Keyword) (newline : Bool) (args : List Token) : Step Unit := do
  requireCount keyword 1 args
  write (emptyTag "output"
    [⟨"expression", quotedExpression args⟩, ⟨"newline", if newline then "True" else "False"⟩])

/-- `scan VARIABLE` reads. -/
def scan : List Token → Step Unit
  | [target] => write (emptyTag "input" [⟨"variable", target⟩])
  | args => refuseCount .scan (.exactly 1) args

/-- `# TEXT` is kept, except outside every block, where it is dropped unless the options say
otherwise. -/
def comment (args : List Token) : Step Unit := do
  requireCount .comment 1 args
  let d ← get
  if !d.atTopLevel || d.options.topLevelComments then
    write (emptyTag "comment" [⟨"text", expression args⟩])

/-- The statement a keyword begins. -/
def ofKeyword : Keyword → List Token → Step Unit
  | .function => function
  | .ifThen => ifThen
  | .otherwise => otherwise
  | .whileLoop => whileLoop
  | .doLoop => doLoop
  | .forLoop => forLoop
  | .close => close
  | .declare => declare
  | .assign => assign
  | .call => call
  | .print => output .print false
  | .println => output .println true
  | .scan => scan
  | .comment => comment

/-- Whether a word may begin a statement outside every block. An `end` is let through, because it
is refused there by an error of its own. -/
def permittedAtTopLevel (keyword : Option Keyword) : Bool :=
  match keyword with
  | some .close => true
  | some keyword => keyword.allowedAtTopLevel
  | none => false

end Statement

open Statement in
/-- Carry out the statement that a list of tokens spells. Outside every block a word that may not
stand there is refused before it is looked up. -/
def process : List Token → Step Unit
  | [] => throw .emptyStatement
  | word :: args => do
    let d ← get
    if d.atTopLevel && !permittedAtTopLevel (Keyword.ofWord? word)
        && !d.options.topLevelStatements then
      throw (.outsideFunction word)
    match Keyword.ofWord? word with
    | none => throw (.unknownCommand word)
    | some keyword => Statement.ofKeyword keyword args

end Flowscript
